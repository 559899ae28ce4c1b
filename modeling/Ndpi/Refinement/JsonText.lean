import Ndpi.Refinement.JsonEscape
import Ndpi.Refinement.JsonForm

/-!
# JSON text as a machine of its own

The text and the flags of a JSON serializer, without the buffer that holds them:
what an operation takes back from the end of the text, what it adds and how it
closes the text again. The size of the buffer plays a part in the escaping only,
and none at all while less than half of the address space is free.
-/
namespace Ndpi.Refinement
open Lib Source.Serialization List

structure JsonText where
  flags : StatusFlags
  text : Bytes

def JsonKey.text (size : Nat) : JsonKey → Nat → Bytes
  | .number key, _ => 0x22 :: decimal key.toNat ++ [0x22, 0x3A]
  | .name bytes, position => quoted (size - position) bytes ++ [0x3A]

def JsonValue.text (size : Nat) : JsonValue → Nat → Bytes
  | .printed text, _ => text
  | .string bytes, position => quoted (size - position) bytes
  | .raw bytes, _ => bytes

/-- Text added at the end, which may depend on where that is. -/
def JsonText.add (t : JsonText) (piece : Nat → Bytes) : JsonText :=
  { t with text := t.text ++ piece t.text.length }

/-- An item up to the closing characters; in a list the key is left out. -/
def JsonText.written (size : Nat) (t : JsonText) (key : JsonKey) (value : JsonValue) : JsonText :=
  (if t.flags.list then t else t.add (key.text size)).add (value.text size)

/-- The name of a list or block and the mark that opens it. -/
def JsonText.named (size : Nat) (t : JsonText) (name mark : Bytes) : JsonText :=
  (t.add fun position => quoted (size - position) name).add fun _ => mark

section
variable (multiline : Bool)

/-- The number of characters the next operation takes back before it writes. -/
def closers (flags : StatusFlags) : Nat :=
  if flags.eor then if multiline then 0 else 1
  else (if !multiline && flags.array then 1 else 0) + 1 +
    if !multiline && flags.list then 1 else 0

/-- What it writes in their place. -/
def opening (flags : StatusFlags) : Bytes :=
  if flags.eor then [if multiline then 0x0A else 0x2C, 0x7B]
  else if flags.list then if flags.sol then [] else [0x2C]
  else if flags.sob then []
  else if flags.comma then [0x2C]
  else []

def openedFlags (flags : StatusFlags) : StatusFlags :=
  if flags.eor then { flags with eor := false }
  else if flags.list then { flags with sol := false }
  else { flags with sob := false }

/-- The characters that close the list, the object and the array. -/
def closing (flags : StatusFlags) : Bytes :=
  (if !multiline && flags.list then [0x5D] else []) ++ 0x7D ::
    if !multiline && flags.array then [0x5D] else []

def JsonText.prepared (t : JsonText) : JsonText :=
  ⟨openedFlags t.flags,
    t.text.take (t.text.length - closers multiline t.flags) ++ opening multiline t.flags⟩

def JsonText.finished (t : JsonText) : JsonText :=
  ⟨{ t.flags with ceob := false, comma := true }, t.text ++ closing multiline t.flags⟩

/-- An operation on the text of a buffer with `size` bytes. -/
def JsonText.step (size : Nat) (t : JsonText) : JsonForm → JsonText
  | .item key value =>
    let p := ((t.prepared multiline).written size key value).finished multiline
    { p with flags.notEmpty := true }
  | .startOfList name =>
    let p := (t.prepared multiline).named size name [0x3A, 0x20, 0x5B]
    { p with flags.list := true, flags.sol := true }.finished multiline
  | .endOfList => { t with flags.sol := false, flags.list := false }
  | .startOfBlock name =>
    let p := ((t.prepared multiline).named size name [0x3A, 0x20, 0x7B]).finished multiline
    { p with flags.sob := true }
  | .endOfBlock => { t with flags.sob := false, flags.ceob := true }.finished multiline
  | .endOfRecord =>
    ⟨{ t.flags with array := true, eor := true, comma := false, notEmpty := false },
      if multiline then t.text ++ [0x0A]
      else if t.flags.array then t.text
      else t.text.set 0 0x5B ++ [0x5D]⟩

/-- The part of the text no later operation takes back. -/
def JsonText.committed (t : JsonText) : Nat := t.text.length - closers multiline t.flags

/-- The text is long enough for what the next operation takes back. -/
def JsonText.Covered (t : JsonText) : Prop := closers multiline t.flags ≤ t.text.length

/-- Less than half of the address space is free behind the committed text. -/
def JsonText.Narrow (size : Nat) (t : JsonText) : Prop :=
  size < 2147483648 + t.committed multiline

variable {multiline}

lemma closing_length (within : flags.eor = false) :
    (closing multiline flags).length = closers multiline flags := by
  unfold closing closers
  rw [within]
  simp only [length_append, length_cons, Bool.false_eq_true, if_false]
  split <;> split <;> rfl

lemma openedFlags_eor (flags : StatusFlags) : (openedFlags flags).eor = false := by
  unfold openedFlags
  split
  · rfl
  · next within =>
    split
    · exact Bool.eq_false_iff.mpr within
    · exact Bool.eq_false_iff.mpr within

variable (t : JsonText)

lemma prepared_length :
    (t.prepared multiline).text.length =
      t.committed multiline + (opening multiline t.flags).length := by
  rw [JsonText.prepared, JsonText.committed, length_append, length_take]
  omega

/-- After the closing characters are written, exactly the text before them is
committed. -/
lemma finished_covered {t : JsonText} (within : t.flags.eor = false) :
    (t.finished multiline).Covered multiline ∧
      (t.finished multiline).committed multiline = t.text.length := by
  have same : closers multiline (t.finished multiline).flags = closers multiline t.flags := rfl
  have length : (t.finished multiline).text.length =
      t.text.length + closers multiline t.flags := by
    rw [JsonText.finished, length_append, closing_length within]
  constructor
  · rw [JsonText.Covered, same]
    omega
  · rw [JsonText.committed, same]
    omega

variable (piece : Nat → Bytes)

lemma add_length :
    (t.add piece).text.length = t.text.length + (piece t.text.length).length := by
  rw [JsonText.add, length_append]

lemma prepared_grown : t.committed multiline ≤ (t.prepared multiline).text.length := by
  rw [prepared_length]
  exact Nat.le_add_right _ _

lemma add_grown : t.text.length ≤ (t.add piece).text.length := by
  rw [add_length]
  exact Nat.le_add_right _ _

lemma written_flags (size : Nat) (t : JsonText) (key : JsonKey) (value : JsonValue) :
    (t.written size key value).flags = t.flags := by
  unfold JsonText.written
  split <;> rfl

lemma written_grown (size : Nat) (t : JsonText) (key : JsonKey) (value : JsonValue) :
    t.text.length ≤ (t.written size key value).text.length := by
  unfold JsonText.written
  split
  · exact add_grown _ _
  · exact le_trans (add_grown _ _) (add_grown _ _)

lemma named_grown (size : Nat) (t : JsonText) (name mark : Bytes) :
    t.text.length ≤ (t.named size name mark).text.length :=
  le_trans (add_grown _ _) (add_grown _ _)

/-- No operation takes back what is committed. -/
lemma step_committed (size : Nat) {t : JsonText} (covered : t.Covered multiline)
    (form : JsonForm) :
    (t.step multiline size form).Covered multiline ∧
      t.committed multiline ≤ (t.step multiline size form).committed multiline := by
  have prepared := @prepared_grown multiline t
  have within : (t.prepared multiline).flags.eor = false := openedFlags_eor t.flags
  have closed : ∀ q : JsonText, q.flags.eor = false → t.committed multiline ≤ q.text.length →
      (q.finished multiline).Covered multiline ∧
        t.committed multiline ≤ (q.finished multiline).committed multiline := by
    intro q inside grown
    obtain ⟨enough, exact⟩ := @finished_covered multiline q inside
    exact ⟨enough, exact ▸ grown⟩
  have least : t.committed multiline ≤ t.text.length := Nat.sub_le _ _
  cases form with
  | item key value =>
    exact closed ((t.prepared multiline).written size key value)
      ((congrArg StatusFlags.eor (written_flags size _ key value)).trans within)
      (Nat.le_trans prepared (written_grown size _ key value))
  | startOfList name => exact closed _ within (Nat.le_trans prepared (named_grown size _ name _))
  | startOfBlock name =>
    exact closed ((t.prepared multiline).named size name [0x3A, 0x20, 0x7B]) within
      (Nat.le_trans prepared (named_grown size _ name _))
  | endOfList =>
    have fewer : closers multiline (t.step multiline size .endOfList).flags ≤
        closers multiline t.flags := by
      dsimp only [JsonText.step, closers]
      split
      · exact Nat.le_refl _
      · simp
    have same : (t.step multiline size .endOfList).text = t.text := rfl
    unfold JsonText.Covered JsonText.committed at *
    rw [same]
    omega
  | endOfBlock =>
    by_cases isOver : t.flags.eor = true
    · have fewer : closers multiline t.flags ≤ 1 := by
        unfold closers
        rw [if_pos isOver]
        split <;> omega
      have length : t.text.length + 1 ≤ (t.step multiline size .endOfBlock).text.length := by
        simp only [JsonText.step, JsonText.finished, closing, length_append, length_cons]
        omega
      have same : closers multiline (t.step multiline size .endOfBlock).flags =
          closers multiline t.flags := rfl
      unfold JsonText.Covered JsonText.committed at *
      rw [same]
      omega
    · exact closed _ (Bool.eq_false_iff.mpr isOver) least
  | endOfRecord =>
    have after : closers multiline (t.step multiline size .endOfRecord).flags =
        if multiline then 0 else 1 := by
      simp [JsonText.step, closers]
    unfold JsonText.Covered JsonText.committed at *
    rw [after]
    cases multiline with
    | true =>
      simp only [JsonText.step, if_true, length_append]
      omega
    | false =>
      have some : 1 ≤ closers false t.flags := by
        unfold closers
        split
        · rfl
        · omega
      simp only [JsonText.step, Bool.false_eq_true, if_false]
      split
      · omega
      · rw [length_append, length_set, length_singleton]
        omega

/-- While the free space is narrow the size of the buffer plays no part. -/
lemma step_narrow {t : JsonText} (narrow : t.Narrow multiline size) (form : JsonForm) :
    t.step multiline size form = t.step multiline 0 form := by
  have prepared := @prepared_grown multiline t
  unfold JsonText.Narrow at narrow
  have quote : ∀ (p : JsonText) (src : Bytes), (t.prepared multiline).text.length ≤ p.text.length →
      quoted (size - p.text.length) src = quoted (0 - p.text.length) src := by
    intro p src grown
    unfold quoted
    rw [if_pos (by omega), if_pos (by omega)]
  have named : ∀ name mark, (t.prepared multiline).named size name mark =
      (t.prepared multiline).named 0 name mark := by
    intro name mark
    simp [JsonText.named, JsonText.add, quote _ name (Nat.le_refl _)]
  have written : ∀ key value, (t.prepared multiline).written size key value =
      (t.prepared multiline).written 0 key value := by
    intro key value
    have keyed : (t.prepared multiline).add (key.text size) =
        (t.prepared multiline).add (key.text 0) := by
      cases key with
      | number key => rfl
      | name bytes => simp [JsonText.add, JsonKey.text, quote _ bytes (Nat.le_refl _)]
    have valued : ∀ p : JsonText, (t.prepared multiline).text.length ≤ p.text.length →
        p.add (value.text size) = p.add (value.text 0) := by
      intro p grown
      cases value with
      | string bytes => simp [JsonText.add, JsonValue.text, quote p bytes grown]
      | _ => rfl
    unfold JsonText.written
    rw [keyed]
    split
    · exact valued _ (le_refl _)
    · exact valued _ (add_grown _ _)
  cases form with
  | item key value => simp [JsonText.step, written]
  | startOfList name => simp [JsonText.step, named]
  | startOfBlock name => simp [JsonText.step, named]
  | _ => rfl

end

def backBy : Nat → Serializer → Serializer
  | 0, s => s
  | count + 1, s => backBy count s.takeBack

def putAll (bytes : Bytes) (s : Serializer) : Serializer := bytes.foldl Serializer.put s

/-- `ndpi_serialize_json_pre` takes characters back, changes the flags and writes
the opening. -/
lemma serializeJsonPre_eq (s : Serializer) (outer : s.innerJson = false) :
    serializeJsonPre s = putAll (opening s.multilineJsonArray s.status.flags)
      { backBy (closers s.multilineJsonArray s.status.flags) s with
        status.flags := openedFlags s.status.flags } := by
  obtain ⟨⟨⟨comma, array, eor, sob, _, list, sol, _, _⟩, _, _⟩, _, _, _, _, _, multiline, _, _⟩ := s
  cases outer
  cases eor <;> cases multiline <;> cases array <;> cases list <;> cases sol <;> cases sob <;>
    cases comma <;> rfl

/-- A closing character that is there in some states only. -/
def putIf (present : Bool) (byte : UInt8) (s : Serializer) : Outcome :=
  if present then s.putChecked byte else ok s

/-- The brace of the object, which an inner record has after a block only. -/
def closeObject (s : Serializer) : Outcome :=
  if s.buffer.size ≤ s.status.used then failed s
  else ok (if !s.innerJson || s.status.flags.ceob then
    { s.put 0x7D with status.flags.ceob := false } else s)

/-- `ndpi_serialize_json_post` closes the list, the object and the array. -/
lemma serializeJsonPost_eq (s : Serializer) :
    serializeJsonPost s =
      (putIf (!s.multilineJsonArray && s.status.flags.list) 0x5D s).andThen fun s =>
        (closeObject s).andThen fun s =>
          (putIf (!s.multilineJsonArray && s.status.flags.array) 0x5D s).andThen fun s =>
            ok { s with status.flags.comma := true } := by
  show (putIf (!s.multilineJsonArray && s.status.flags.list) 0x5D s).andThen _ = _
  congr 1
  funext r
  unfold closeObject
  by_cases full : r.buffer.size ≤ r.status.used
  · rw [if_pos full, if_pos full]
    rfl
  · rw [if_neg full, if_neg full]
    rfl

lemma andThen_success {o : Outcome} {f : Serializer → Outcome} (success : (o.andThen f).rc = 0) :
    o.rc = 0 ∧ (f o.ser).rc = 0 ∧ o.andThen f = f o.ser := by
  unfold Outcome.andThen at success ⊢
  split at success
  · next first =>
    rw [if_pos first]
    exact ⟨first, success, rfl⟩
  · next failure => exact absurd success failure

end Ndpi.Refinement
