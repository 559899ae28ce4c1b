import Ndpi.Refinement.JsonFootprint

/-!
# The literals of the escaper

`ndpi_serializer.c:85-166`: with two bytes of room for every byte of the string and two
for the quotes, `ndpi_json_string_escape` writes one string literal of JSON, which denotes
what the escaper keeps. The literal is UTF-8 if the multi-byte sequences are, which the
escaper does not test: it takes overlong forms, surrogates and what is above U+10FFFF.
-/
namespace Ndpi.Guarantees.JsonLiteral
open Lib Source.Serialization Refinement List

lemma jsonStringEscape_whole {src : Bytes} {dstMaxLen : Int}
    (room : 2 * src.length + 2 ≤ dstMaxLen) :
    jsonStringEscape src dstMaxLen = 0x22 :: escaped src ++ [0x22] := by
  have short := escapeLoop_length dstMaxLen 1 src
  rcases escapeLoop_whole dstMaxLen 1 src with whole | full
  · rw [jsonStringEscape, whole]
  · omega

/-- The escaper writes one literal, whose content is what it keeps of the string. -/
theorem json_string_escape_literal (src : Bytes) (dstMaxLen : Int)
    (room : 2 * src.length + 2 ≤ dstMaxLen) :
    ∃ body, jsonStringEscape src dstMaxLen = 0x22 :: body ++ [0x22] ∧
      Json.Literal body (kept src) :=
  ⟨escaped src, jsonStringEscape_whole room, literal_escaped src⟩

/-- A quote, a line break, a character of two bytes, a lone continuation byte and 0x7F. -/
theorem json_string_escape_literal_sample :
    let src : Bytes := [0x22, 0x0A, 0xC3, 0xA9, 0x80, 0x7F]
    kept src = [0x22, 0x0A, 0xC3, 0xA9] ∧ ∃ body,
      jsonStringEscape src 14 = 0x22 :: body ++ [0x22] ∧ Json.Literal body (kept src) :=
  ⟨by decide +kernel, json_string_escape_literal _ 14 (by decide)⟩

/-- The encoding of a sequence of Unicode characters, none of them a surrogate. -/
def WellFormed (text : Bytes) : Prop := text.toByteArray.IsValidUTF8

lemma WellFormed.append (first : WellFormed text) (second : WellFormed more) :
    WellFormed (text ++ more) := by
  unfold WellFormed
  rw [toByteArray_append]
  exact ByteArray.IsValidUTF8.append first second

lemma wellFormed_ascii (ascii : ∀ b ∈ text, b ≤ 0x7F) : WellFormed text := by
  induction text with
  | nil => exact ByteArray.isValidUTF8_empty
  | cons b rest ih =>
    have small : b.toNat ≤ 127 := ascii b (by simp)
    have alone : String.utf8EncodeChar (Char.ofNat b.toNat) = [b] := by
      have value : (Char.ofNat b.toNat).val.toNat = b.toNat := by
        rw [Char.ofNat, dif_pos (.inl (by omega))]
        rfl
      simp [String.utf8EncodeChar, value, small]
    have first : WellFormed [b] := by
      rw [← alone]
      exact Char.isValidUTF8_toByteArray_utf8EncodeChar
    exact first.append (ih fun other member => ascii other (by simp [member]))

lemma escapeAscii_ascii (low : c ≤ 0x7E) : ∀ b ∈ escapeAscii c, b ≤ 0x7F := by
  have below : c ≤ 0x7F := UInt8.le_trans low (by decide)
  unfold escapeAscii
  repeat' split
  all_goals simp [below]

lemma sequenceLength_ofNat (byte : n < 256) : sequenceLength (UInt8.ofNat n) =
    if n < 0x80 then 1 else if n < 0xE0 then 2 else if n < 0xF0 then 3 else 4 := by
  have value : (UInt8.ofNat n).toNat = n := by simp [byte]
  simp [sequenceLength, UInt8.lt_iff_toNat_lt, value]

lemma utf8EncodeChar_length (char : Char) (begins : String.utf8EncodeChar char = lead :: more) :
    (lead :: more).length = sequenceLength lead := by
  unfold String.utf8EncodeChar at begins
  generalize char.val.toNat = v at begins
  dsimp only at begins
  -- one case for each length of an encoding, with the range of its lead byte
  split at begins
  · obtain ⟨rfl, rfl⟩ := cons.inj begins
    rw [sequenceLength_ofNat (by omega), if_pos (by omega)]
    rfl
  split at begins
  · obtain ⟨rfl, rfl⟩ := cons.inj begins
    rw [sequenceLength_ofNat (by omega), if_neg (by omega), if_pos (by omega)]
    rfl
  split at begins
  · obtain ⟨rfl, rfl⟩ := cons.inj begins
    rw [sequenceLength_ofNat (by omega), if_neg (by omega), if_neg (by omega), if_pos (by omega)]
    rfl
  · obtain ⟨rfl, rfl⟩ := cons.inj begins
    rw [sequenceLength_ofNat (by omega), if_neg (by omega), if_neg (by omega), if_neg (by omega)]
    rfl

/-- The lead byte decides where the first character ends. -/
lemma WellFormed.split (whole : WellFormed (lead :: more ++ rest))
    (length : (lead :: more).length = sequenceLength lead) :
    WellFormed (lead :: more) ∧ WellFormed rest := by
  obtain ⟨chars, encoded⟩ := whole
  have bytes := toByteArray_inj.mp encoded
  cases chars with
  | nil => cases bytes
  | cons char chars =>
    rw [flatMap_cons] at bytes
    cases begins : String.utf8EncodeChar char with
    | nil => exact absurd begins String.utf8EncodeChar_ne_nil
    | cons first others =>
      have same : (first :: others).length = sequenceLength first :=
        utf8EncodeChar_length char begins
      rw [begins] at bytes
      obtain rfl : lead = first := (cons.inj bytes).1
      obtain ⟨here, behind⟩ := append_inj bytes (length.trans same.symm)
      rw [here, behind, ← begins]
      exact ⟨Char.isValidUTF8_toByteArray_utf8EncodeChar, chars, rfl⟩

lemma wellFormed_ascii_append (ascii : ∀ b ∈ text, b ≤ 0x7F) :
    WellFormed (text ++ rest) ↔ WellFormed rest := by
  refine ⟨fun whole => ?_, (wellFormed_ascii ascii).append⟩
  induction text with
  | nil => exact whole
  | cons b text ih =>
    obtain ⟨first, others⟩ := forall_mem_cons.mp ascii
    have alone : [b].length = sequenceLength b := by
      rw [sequenceLength, if_pos (UInt8.lt_of_le_of_lt first (by decide))]
      rfl
    have parts : WellFormed [b] ∧ WellFormed (text ++ rest) := WellFormed.split whole alone
    exact ih others parts.2

lemma wellFormed_chars {chars : List Bytes} (each : ∀ char ∈ chars, KeptChar char) :
    WellFormed (chars.flatMap charText ++ rest) ↔
      (∀ char ∈ chars, 1 < char.length → WellFormed char) ∧ WellFormed rest := by
  induction chars with
  | nil => simp
  | cons char chars ih =>
    obtain ⟨here, later⟩ := forall_mem_cons.mp each
    rw [flatMap_cons, append_assoc, forall_mem_cons, and_assoc, ← ih later]
    cases here with
    | ascii low =>
      rw [charText, wellFormed_ascii_append (escapeAscii_ascii low)]
      simp
    | wide high length =>
      rw [charText]
      · refine ⟨fun whole => ?_, fun parts => (parts.1 (by simp)).append parts.2⟩
        have parts := WellFormed.split whole length
        exact ⟨fun _ => parts.1, parts.2⟩
      · simp

/-- The literal is UTF-8 exactly if every multi-byte sequence the escaper takes is. -/
theorem json_string_escape_utf8 (src : Bytes) (dstMaxLen : Int)
    (room : 2 * src.length + 2 ≤ dstMaxLen) :
    WellFormed (jsonStringEscape src dstMaxLen) ↔
      ∀ char ∈ keptChars src, 1 < char.length → WellFormed char := by
  have quote : ∀ b ∈ [(0x22 : UInt8)], b ≤ 0x7F := by simp
  have whole : jsonStringEscape src dstMaxLen = [0x22] ++ (escaped src ++ [0x22]) :=
    jsonStringEscape_whole room
  rw [whole, wellFormed_ascii_append quote, escaped, wellFormed_chars (keptChars_kept src)]
  exact and_iff_left (wellFormed_ascii quote)

/-- A quote and é pass as they are; of the encoding of U+D800 nothing is well-formed. -/
theorem json_string_escape_utf8_sample :
    WellFormed (jsonStringEscape [0x22, 0xC3, 0xA9] 8) ∧
      ¬WellFormed (jsonStringEscape [0x22, 0xED, 0xA0, 0x80] 10) := by
  rw [json_string_escape_utf8 _ 8 (by decide), json_string_escape_utf8 _ 10 (by decide)]
  have chars : keptChars [0x22, 0xC3, 0xA9] = [[0x22], [0xC3, 0xA9]] := by decide +kernel
  have bad : keptChars [0x22, 0xED, 0xA0, 0x80] = [[0x22], [0xED, 0xA0, 0x80]] := by
    decide +kernel
  rw [chars, bad]
  simp only [forall_mem_cons, length_singleton, lt_irrefl, false_imp_iff, true_and]
  refine ⟨⟨fun _ => @Char.isValidUTF8_toByteArray_utf8EncodeChar 'é', by simp⟩, fun all => ?_⟩
  have wide := all.1 (by decide)
  rw [WellFormed, ← ByteArray.validateUTF8_eq_true_iff] at wide
  exact absurd wide (by decide +kernel)

/-- The encoding of the surrogate U+D800 passes. -/
theorem json_string_escape_surrogate :
    jsonStringEscape [0xED, 0xA0, 0x80] 8 = [0x22, 0xED, 0xA0, 0x80, 0x22] ∧
      ¬WellFormed [0x22, 0xED, 0xA0, 0x80, 0x22] := by
  constructor
  · decide +kernel
  · rw [WellFormed, ← ByteArray.validateUTF8_eq_true_iff]
    decide +kernel

end Ndpi.Guarantees.JsonLiteral
