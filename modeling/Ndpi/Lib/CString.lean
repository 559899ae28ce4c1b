import Mathlib.Data.List.Infix
import Ndpi.Lib.Lines
import Ndpi.Lib.Memory
import Ndpi.Lib.Substring

/-!
# C strings

The string functions of the C library on buffers of bytes: a string ends at its first
zero byte. Each function comes with what it does to texts without one.
-/
namespace Ndpi.Lib.CString
open List

/-- The bytes of a string literal. -/
def ascii (literal : String) : Bytes := literal.toByteArray.data.toList

/-- The characters of an ASCII literal, byte by byte. -/
def chars (literal : String) : List Char := (ascii literal).map fun b => Char.ofNat b.toNat

/-- The string at the start of these bytes; its length is `strlen`. -/
def cString (bytes : Bytes) : Bytes := bytes.takeWhile (· ≠ 0)

/-- What `strncpy` stores: the string, cut off after `count` bytes, and zeros behind it. -/
def strncpy (source : Bytes) (count : Nat) : Bytes :=
  cString (source.take count) ++ List.replicate (count - (cString (source.take count)).length) 0

/-- How many bytes `strncpy` reads: the string with its zero byte, at most `count`. -/
def strncpyReads (source : Bytes) (count : Nat) : Nat :=
  min count ((cString (source.take count)).length + 1)

/-- `strstr` finds the second string in the first one. -/
def strstr (text needle : Bytes) : Bool := (firstOccurrence needle text).isSome

/-- The tokens that `strtok_r` finds between these delimiters. -/
def tokens (delimiter : UInt8) (text : Bytes) : List Bytes :=
  (text.splitOn delimiter).filter (· ≠ [])

lemma cString_of_notMem (absent : 0 ∉ bytes) : cString bytes = bytes :=
  takeWhile_ne_of_notMem absent

lemma cString_append (absent : 0 ∉ text) (rest : Bytes) :
    cString (text ++ 0 :: rest) = text := takeWhile_ne_append absent rest

lemma cString_length_le (bytes : Bytes) : (cString bytes).length ≤ bytes.length :=
  (List.takeWhile_prefix _).length_le

@[simp] lemma strncpy_length (source : Bytes) (count : Nat) :
    (strncpy source count).length = count := by
  have short := cString_length_le (source.take count)
  have cut : (source.take count).length ≤ count := length_take_le _ _
  rw [strncpy, length_append, length_replicate]
  omega

/-- Copying a whole text. -/
lemma strncpy_append (absent : 0 ∉ text) (rest : Bytes) :
    strncpy (text ++ rest) text.length = text := by
  rw [strncpy, take_left, cString_of_notMem absent, Nat.sub_self, replicate_zero, append_nil]

lemma strstr_iff : strstr text needle = true ↔ needle <:+: text := by
  unfold strstr
  induction text with
  | nil =>
    rw [firstOccurrence, infix_nil]
    split
    · next empty => exact iff_of_true rfl empty
    · next given => exact iff_of_false Bool.false_ne_true given
  | cons c text ih =>
    rw [firstOccurrence, infix_cons_iff]
    split
    · next here => exact iff_of_true rfl (.inl here)
    · next absent => rw [Option.isSome_map, ih, or_iff_right absent]

variable {elements : List Bytes}

lemma notMem_intercalate (other : b ≠ delimiter) (absent : ∀ element ∈ elements, b ∉ element) :
    b ∉ [delimiter].intercalate elements := by
  induction elements with
  | nil => exact not_mem_nil
  | cons first rest ih =>
    have here := absent first mem_cons_self
    by_cases last : rest = []
    · subst last
      rw [intercalate_singleton]
      exact here
    · rw [intercalate_cons_of_ne_nil last]
      have later := ih fun element member => absent element (mem_cons_of_mem _ member)
      simp [here, other, later]

/-- The tokens of a joined list are its elements that are not empty. -/
lemma tokens_intercalate (plain : ∀ element ∈ elements, delimiter ∉ element) :
    tokens delimiter ([delimiter].intercalate elements) = elements.filter (· ≠ []) := by
  unfold tokens
  by_cases some : elements = []
  · rw [some, intercalate_nil, splitOn_nil]
    rfl
  · rw [splitOn_intercalate delimiter plain some]

end Ndpi.Lib.CString
