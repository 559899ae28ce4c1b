import Ndpi.Lib.Json

/-!
# Composition rules for the JSON reader

`Reads text value` says that `text` is consumed as `value` wherever a delimiter
follows. Each rule builds one production of the grammar from its parts, so that
a writer is checked against the reader without unfolding it.
-/
namespace Ndpi.Lib.Json
open List

/-- Nothing that could extend a number. -/
def Stops (after : Bytes) : Prop :=
  ∀ b ∈ after.head?, isDigit b = false ∧ b ≠ 0x2E ∧ b ≠ 0x65 ∧ b ≠ 0x45

lemma stops_nil : Stops [] := by simp [Stops]

variable (after : Bytes)

lemma stops_comma : Stops (0x2C :: after) := by simp [Stops, isDigit]

lemma stops_brace : Stops (0x7D :: after) := by simp [Stops, isDigit]

lemma stops_bracket : Stops (0x5D :: after) := by simp [Stops, isDigit]

/-- The body of a string literal and the bytes it denotes. -/
def Literal (body content : Bytes) : Prop :=
  ∀ after, readString (body ++ 0x22 :: after) = some (content, after)

lemma literal_nil : Literal [] [] := by
  intro after
  rw [nil_append, readString.eq_def]
  rfl

variable {body content : Bytes}

lemma literal_plain (rest : Literal body content) (printable : 0x20 ≤ b)
    (notQuote : b ≠ 0x22) (notBackslash : b ≠ 0x5C) :
    Literal (b :: body) (b :: content) := by
  intro after
  have low : ¬ b < 0x20 := UInt8.not_lt.mpr printable
  rw [cons_append, readString.eq_def]
  simp [if_neg notQuote, if_neg notBackslash, if_neg low, rest after]

lemma literal_escape (rest : Literal body content) (named : simpleEscape e = some value) :
    Literal (0x5C :: e :: body) (value :: content) := by
  intro after
  have notUnicode : e ≠ 0x75 := by
    rintro rfl
    simp [simpleEscape] at named
  rw [cons_append, cons_append, readString.eq_def]
  simp [if_neg notUnicode, named, rest after]

lemma literal_digits {digits : Bytes} (all : ∀ b ∈ digits, isDigit b = true) :
    Literal digits digits := by
  induction digits with
  | nil => exact literal_nil
  | cons b rest ih =>
    have digit := all b (by simp)
    refine literal_plain (ih fun other member => all other (by simp [member])) ?_ ?_ ?_
    · simp only [isDigit, Bool.and_eq_true, decide_eq_true_eq] at digit
      exact UInt8.le_trans (by decide) digit.1
    · rintro rfl
      exact absurd digit (by decide)
    · rintro rfl
      exact absurd digit (by decide)

def Reads (text : Bytes) (value : Json) : Prop :=
  ∀ fuel after, text.length ≤ fuel → Stops after →
    readValue fuel (text ++ after) = some (value, after)

/-- The inside of a non-empty object. -/
def ReadsMembers (text : Bytes) (members : List (Bytes × Json)) : Prop :=
  ∀ fuel after, text.length ≤ fuel → readMembers fuel (text ++ 0x7D :: after) = some (members, after)

/-- The inside of a non-empty array. -/
def ReadsElements (text : Bytes) (elements : List Json) : Prop :=
  ∀ fuel after, text.length < fuel → readElements fuel (text ++ 0x5D :: after) = some (elements, after)

lemma skipSpace_of_not_space (solid : isSpace b = false) :
    skipSpace (b :: rest) = b :: rest := by simp [skipSpace, solid]

lemma skipSpace_space : skipSpace (0x20 :: rest) = skipSpace rest := by
  simp [skipSpace, isSpace]

lemma reads_string (literal : Literal body content) :
    Reads (0x22 :: body ++ [0x22]) (.str content) := by
  intro fuel after enough _
  cases fuel with
  | zero => simp at enough
  | succ fuel =>
    have text : 0x22 :: body ++ [0x22] ++ after = 0x22 :: (body ++ 0x22 :: after) := by simp
    rw [text, readValue, skipSpace_of_not_space (by decide)]
    simp [literal after]

lemma takeWhile_digits {digits after : Bytes} (all : ∀ b ∈ digits, isDigit b = true)
    (stop : Stops after) :
    (digits ++ after).takeWhile isDigit = digits ∧ (digits ++ after).dropWhile isDigit = after := by
  induction digits with
  | nil =>
    cases after with
    | nil => simp
    | cons b rest => simp [(stop b rfl).1]
  | cons b digits ih =>
    have head := all b (by simp)
    have tail := ih (fun c member => all c (by simp [member]))
    simp [head, tail]

lemma readUnsigned_decimal (n : Nat) {after : Bytes} (stop : Stops after) :
    readUnsigned (decimal n ++ after) = some (n, 0, after) := by
  obtain ⟨whole, tail⟩ := takeWhile_digits (decimal_digits n) stop
  have plain : ¬ (decimal n = [] ∨ (decimal n).head? = some 48 ∧ (decimal n).tail ≠ []) := by
    rintro (empty | ⟨zero, more⟩)
    · exact decimal_ne_nil n empty
    · rcases Nat.eq_zero_or_pos n with rfl | positive
      · simp [decimal_zero] at more
      · obtain ⟨b, rest, text, nonzero⟩ := decimal_head n positive
        simp [text, nonzero] at zero
  have fraction : readFraction after = some ([], after) := by
    cases after with
    | nil => rfl
    | cons b rest => simp [readFraction, (stop b rfl).2.1]
  have exponent : readExponent after = some (0, after) := by
    cases after with
    | nil => rfl
    | cons b rest => simp [readExponent, (stop b rfl).2.2]
  simp only [readUnsigned, whole, tail, if_neg plain, fraction, exponent, append_nil,
    digitsValue_decimal]
  simp

private lemma decimal_first (n : Nat) : ∃ b rest, decimal n = b :: rest ∧ isDigit b = true := by
  cases text : decimal n with
  | nil => exact absurd text (decimal_ne_nil n)
  | cons b rest => exact ⟨b, rest, rfl, decimal_digits n b (by simp [text])⟩

lemma readNumber_decimalInt (z : Int) {after : Bytes} (stop : Stops after) :
    readNumber (decimalInt z ++ after) = some (.num z 0, after) := by
  unfold decimalInt
  split
  · next negative =>
    rw [cons_append, readNumber, if_pos rfl, readUnsigned_decimal _ stop]
    simp only [Option.some.injEq, Prod.mk.injEq, num.injEq, and_true]
    omega
  · next nonneg =>
    obtain ⟨b, rest, text, digit⟩ := decimal_first z.natAbs
    have notMinus : b ≠ 0x2D := by
      rintro rfl
      simp [isDigit] at digit
    have read := readUnsigned_decimal z.natAbs stop
    rw [text, cons_append] at read ⊢
    rw [readNumber, if_neg notMinus, read]
    simp only [Option.some.injEq, Prod.mk.injEq, num.injEq, and_true]
    omega

/-- The first byte of a number cannot be taken for another kind of value. -/
lemma decimalInt_first (z : Int) :
    ∃ b rest, decimalInt z = b :: rest ∧ (b = 0x2D ∨ isDigit b = true) := by
  unfold decimalInt
  split
  · exact ⟨_, _, rfl, .inl rfl⟩
  · obtain ⟨b, rest, text, digit⟩ := decimal_first z.natAbs
    exact ⟨b, rest, text, .inr digit⟩

lemma reads_int (z : Int) : Reads (decimalInt z) (.num z 0) := by
  intro fuel after enough stop
  obtain ⟨b, rest, text, first⟩ := decimalInt_first z
  have number := readNumber_decimalInt z stop
  rw [text] at enough number ⊢
  cases fuel with
  | zero => simp at enough
  | succ fuel =>
    have range : b = 0x2D ∨ (48 ≤ b.toNat ∧ b.toNat ≤ 57) := by
      rcases first with minus | digit
      · exact .inl minus
      · simp only [isDigit, Bool.and_eq_true, decide_eq_true_eq, UInt8.le_iff_toNat_le] at digit
        exact .inr digit
    have other : ∀ c : UInt8, c.toNat ≠ 45 → (c.toNat < 48 ∨ 57 < c.toNat) → b ≠ c := by
      rintro c notMinus outside rfl
      rcases range with minus | digit
      · exact notMinus (by rw [minus]; rfl)
      · omega
    have solid : isSpace b = false := by
      simp [isSpace, other 0x20 (by decide) (by decide), other 0x09 (by decide) (by decide),
        other 0x0A (by decide) (by decide), other 0x0D (by decide) (by decide)]
    rw [cons_append] at number ⊢
    rw [readValue, skipSpace_of_not_space solid]
    simp [if_neg (other 0x22 (by decide) (by decide)), if_neg (other 0x7B (by decide) (by decide)),
      if_neg (other 0x5B (by decide) (by decide)), other 0x74 (by decide) (by decide),
      other 0x66 (by decide) (by decide), other 0x6E (by decide) (by decide), number]

variable {value : Json} {text : Bytes}

lemma reads_space (plain : Reads text value) : Reads (0x20 :: text) value := by
  intro fuel after enough stop
  cases fuel with
  | zero => simp at enough
  | succ fuel =>
    have body := plain (fuel + 1) after (by simp at enough; omega) stop
    rw [cons_append]
    rw [readValue] at body ⊢
    rw [skipSpace_space]
    exact body

/-- A member is a name literal, a colon and a value. -/
lemma reads_member {body text : Bytes} (literal : Literal body name) (plain : Reads text value) :
    ReadsMembers (0x22 :: body ++ 0x22 :: 0x3A :: text) [(name, value)] := by
  intro fuel after enough
  cases fuel with
  | zero => simp at enough
  | succ fuel =>
    have shape : 0x22 :: body ++ 0x22 :: 0x3A :: text ++ 0x7D :: after =
        0x22 :: (body ++ 0x22 :: (0x3A :: (text ++ 0x7D :: after))) := by simp
    have inner := plain fuel (0x7D :: after) (by simp at enough; omega) (stops_brace after)
    rw [shape, readMembers, skipSpace_of_not_space (by decide)]
    simp [literal (0x3A :: (text ++ 0x7D :: after)), skipSpace, isSpace, inner]

variable {members : List (Bytes × Json)}

lemma reads_members_cons {body text : Bytes}
    (literal : Literal body name) (plain : Reads text value) (others : ReadsMembers rest members) :
    ReadsMembers (0x22 :: body ++ 0x22 :: 0x3A :: text ++ 0x2C :: rest)
      ((name, value) :: members) := by
  intro fuel after enough
  cases fuel with
  | zero => simp at enough
  | succ fuel =>
    have shape : 0x22 :: body ++ 0x22 :: 0x3A :: text ++ 0x2C :: rest ++ 0x7D :: after =
        0x22 :: (body ++ 0x22 :: (0x3A :: (text ++ 0x2C :: (rest ++ 0x7D :: after)))) := by simp
    have inner := plain fuel (0x2C :: (rest ++ 0x7D :: after)) (by simp at enough; omega)
      (stops_comma _)
    have tail := others fuel after (by simp at enough; omega)
    rw [shape, readMembers, skipSpace_of_not_space (by decide)]
    simp [literal (0x3A :: (text ++ 0x2C :: (rest ++ 0x7D :: after))), skipSpace, isSpace, inner,
      tail]

lemma reads_object_nil : Reads [0x7B, 0x7D] (.obj []) := by
  intro fuel after enough _
  cases fuel with
  | zero => simp at enough
  | succ fuel =>
    have shape : [0x7B, 0x7D] ++ after = 0x7B :: 0x7D :: after := rfl
    rw [shape, readValue, skipSpace_of_not_space (by decide)]
    simp [skipSpace, isSpace]

lemma reads_object (inside : ReadsMembers text members) (first : text.head? = some 0x22) :
    Reads (0x7B :: text ++ [0x7D]) (.obj members) := by
  intro fuel after enough _
  cases fuel with
  | zero => simp at enough
  | succ fuel =>
    have shape : 0x7B :: text ++ [0x7D] ++ after = 0x7B :: (text ++ 0x7D :: after) := by simp
    have inner := inside fuel after (by simp at enough; omega)
    obtain ⟨tail, rfl⟩ : ∃ tail, text = 0x22 :: tail := by
      cases text with
      | nil => simp at first
      | cons b tail =>
        simp only [head?_cons, Option.some.injEq] at first
        exact ⟨tail, by rw [first]⟩
    rw [shape, readValue, skipSpace_of_not_space (by decide)]
    have notBrace : (skipSpace (0x22 :: tail ++ 0x7D :: after)).head? ≠ some 0x7D := by
      rw [cons_append, skipSpace_of_not_space (by decide)]
      simp
    simp only [if_neg notBrace, inner]
    simp

lemma reads_element (plain : Reads text value) : ReadsElements text [value] := by
  intro fuel after enough
  cases fuel with
  | zero => simp at enough
  | succ fuel =>
    rw [readElements, plain fuel _ (by omega) (stops_bracket after)]
    simp [skipSpace, isSpace]

variable {elements : List Json}

lemma reads_elements_cons {text : Bytes} (plain : Reads text value)
    (others : ReadsElements rest elements) :
    ReadsElements (text ++ 0x2C :: rest) (value :: elements) := by
  intro fuel after enough
  cases fuel with
  | zero => simp at enough
  | succ fuel =>
    have shape : text ++ 0x2C :: rest ++ 0x5D :: after =
        text ++ 0x2C :: (rest ++ 0x5D :: after) := by simp
    simp only [length_append, length_cons] at enough
    have head := plain fuel (0x2C :: (rest ++ 0x5D :: after)) (by omega) (stops_comma _)
    have tail := others fuel after (by omega)
    rw [shape, readElements, head]
    simp [skipSpace, isSpace, tail]

lemma reads_array_nil : Reads [0x5B, 0x5D] (.arr []) := by
  intro fuel after enough _
  cases fuel with
  | zero => simp at enough
  | succ fuel =>
    have shape : [0x5B, 0x5D] ++ after = 0x5B :: 0x5D :: after := rfl
    rw [shape, readValue, skipSpace_of_not_space (by decide)]
    simp [skipSpace, isSpace]

/-- `text` must not start like an empty array; a value never does. -/
lemma reads_array (inside : ReadsElements text elements)
    (first : ∃ b rest, text = b :: rest ∧ isSpace b = false ∧ b ≠ 0x5D) :
    Reads (0x5B :: text ++ [0x5D]) (.arr elements) := by
  intro fuel after enough _
  cases fuel with
  | zero => simp at enough
  | succ fuel =>
    have shape : 0x5B :: text ++ [0x5D] ++ after = 0x5B :: (text ++ 0x5D :: after) := by simp
    have inner := inside fuel after (by simp at enough; omega)
    obtain ⟨b, rest, rfl, solid, other⟩ := first
    rw [shape, readValue, skipSpace_of_not_space (by decide)]
    have notBracket : (skipSpace (b :: rest ++ 0x5D :: after)).head? ≠ some 0x5D := by
      rw [cons_append, skipSpace_of_not_space solid]
      simpa using other
    simp only [if_neg notBracket, inner]
    simp

/-- A text that reads as a value is a whole JSON text. -/
lemma read_of_reads (plain : Reads text value) : read text = some value := by
  have whole := plain (text.length + 1) [] (by omega) stops_nil
  rw [append_nil] at whole
  simp [read, whole, skipSpace]

end Ndpi.Lib.Json
