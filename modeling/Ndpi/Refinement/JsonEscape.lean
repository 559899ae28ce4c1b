import Ndpi.Lib.JsonReads
import Ndpi.Source.Serialization.Json

/-!
# What the escaper keeps

The characters `ndpi_json_string_escape` passes on, the text it writes for them
when nothing is cut off, and the string that text denotes. The bound is the
length of the rest of the buffer read as a signed number: with half of the
address space left it is negative, and the string comes out empty.
-/
namespace Ndpi.Refinement
open Lib Source.Serialization List Json

/-- Control characters that have no short escape. -/
def isBareControl (c : UInt8) : Bool := c < 0x20 && c ∉ [0x08, 0x09, 0x0A, 0x0C, 0x0D]

/-- The characters of one to four bytes that are passed on; control characters
without an escape and broken multi-byte sequences are left out. -/
def keptChars : Bytes → List Bytes
  | [] => []
  | c :: rest =>
    if c ≤ 0x7E then if isBareControl c then keptChars rest else [c] :: keptChars rest
    else if c = 0x7F then keptChars rest
    else
      match rest with
      | [] => []
      | c1 :: rest1 =>
        if 0xC2 ≤ c && c ≤ 0xDF && isContinuation c1 then [c, c1] :: keptChars rest1
        else
          match rest1 with
          | [] => keptChars [c1]
          | c2 :: rest2 =>
            if 0xE0 ≤ c && c ≤ 0xEF && isContinuation c1 && isContinuation c2 then
              [c, c1, c2] :: keptChars rest2
            else
              match rest2 with
              | [] => keptChars [c1, c2]
              | c3 :: rest3 =>
                if 0xF0 ≤ c && c ≤ 0xF4 && isContinuation c1 && isContinuation c2 &&
                    isContinuation c3 then
                  [c, c1, c2, c3] :: keptChars rest3
                else keptChars (c1 :: c2 :: c3 :: rest3)

lemma escapeAscii_bare (bare : isBareControl c = true) : escapeAscii c = [] := by
  simp only [isBareControl, Bool.and_eq_true, decide_eq_true_eq, mem_cons, not_or] at bare
  obtain ⟨below, b, t, n, f, r, -⟩ := bare
  have named : ¬(c = 0x5C ∨ c = 0x22 ∨ c = 0x2F) := by
    rintro (rfl | rfl | rfl) <;> exact absurd below (by decide)
  rw [escapeAscii, if_neg named, if_neg b, if_neg t, if_neg n, if_neg f, if_neg r, if_pos below]

def charText : Bytes → Bytes
  | [c] => escapeAscii c
  | char => char

/-- The content of a string that was escaped whole. -/
def kept (src : Bytes) : Bytes := (keptChars src).flatten

/-- The text of it, between the quotes. -/
def escaped (src : Bytes) : Bytes := (keptChars src).flatMap charText

/-- The literal written with `room` bytes left in the buffer. -/
def quoted (room : Nat) (src : Bytes) : Bytes :=
  0x22 :: (if room < 2147483648 then escaped src else []) ++ [0x22]

/-- One round of the loop, which writes `text` and goes on with `rest`. -/
private lemma whole_step {bound : Int} {j : Nat} {rest loop : Bytes} (text : Bytes)
    (unfolds : escaped src = text ++ escaped rest)
    (ih : loop = escaped rest ∨ bound ≤ (j + text.length : Nat) + loop.length) :
    text ++ loop = escaped src ∨ bound ≤ j + (text ++ loop).length := by
  rcases ih with whole | full
  · exact .inl (by rw [whole, unfolds])
  · right
    rw [length_append]
    omega

/-- The loop writes the whole text or reaches its bound. -/
lemma escapeLoop_whole (bound : Int) (j : Nat) (src : Bytes) :
    escapeLoop bound j src = escaped src ∨ bound ≤ j + (escapeLoop bound j src).length := by
  fun_induction escapeLoop bound j src with
  | case1 => exact .inl rfl
  | case2 j c rest full => exact .inr (by simpa using full)
  | case3 j c rest room ascii ih =>
    refine whole_step (escapeAscii c) ?_ ih
    rw [escaped, keptChars.eq_def]
    simp only [if_pos ascii]
    split
    · next bare => rw [escapeAscii_bare bare, nil_append, escaped]
    · rw [flatMap_cons, charText, escaped]
  | case4 j rest room high ih =>
    refine whole_step [] ?_ ih
    rw [escaped, keptChars.eq_def]
    simp only [if_neg high, if_true, nil_append, escaped]
  | case5 j c room high other =>
    left
    rw [escaped, keptChars.eq_def]
    simp only [if_neg high, if_neg other, flatMap_nil]
  | case6 j c room high other c1 rest two ih =>
    refine whole_step [c, c1] ?_ ih
    rw [escaped, keptChars.eq_def]
    simp only [if_neg high, if_neg other, if_pos two, flatMap_cons, charText, escaped]
  | case7 j c room high other c1 two ih =>
    refine whole_step [] ?_ ih
    rw [escaped, keptChars.eq_def]
    simp only [if_neg high, if_neg other, if_neg two, nil_append, escaped]
  | case8 j c room high other c1 two c2 rest three ih =>
    refine whole_step [c, c1, c2] ?_ ih
    rw [escaped, keptChars.eq_def]
    simp only [if_neg high, if_neg other, if_neg two, if_pos three, flatMap_cons, charText, escaped]
  | case9 j c room high other c1 two c2 three ih =>
    refine whole_step [] ?_ ih
    rw [escaped, keptChars.eq_def]
    simp only [if_neg high, if_neg other, if_neg two, if_neg three, nil_append, escaped]
  | case10 j c room high other c1 two c2 three c3 rest four ih =>
    refine whole_step [c, c1, c2, c3] ?_ ih
    rw [escaped, keptChars.eq_def]
    simp only [if_neg high, if_neg other, if_neg two, if_neg three, if_pos four, flatMap_cons,
      charText, escaped]
  | case11 j c room high other c1 two c2 three c3 rest four ih =>
    refine whole_step [] ?_ ih
    rw [escaped, keptChars.eq_def]
    simp only [if_neg high, if_neg other, if_neg two, if_neg three, if_neg four, nil_append,
      escaped]

/-- What the escaper writes if it stays inside the rest of the buffer. -/
lemma jsonStringEscape_eq (small : room < 4294967296)
    (fits : (jsonStringEscape src (toInt32 room)).length ≤ room) :
    jsonStringEscape src (toInt32 room) = quoted room src := by
  rw [jsonStringEscape, quoted]
  simp only [jsonStringEscape, cons_append, length_cons, length_append, length_nil] at fits
  by_cases narrow : room < 2147483648
  · have bound : toInt32 room = room := by rw [toInt32, if_pos narrow]
    rw [if_pos narrow]
    rcases escapeLoop_whole (toInt32 room) 1 src with whole | full
    · rw [whole]
    · omega
  · have bound : toInt32 room ≤ 1 := by
      rw [toInt32, if_neg narrow]
      omega
    rw [if_neg narrow]
    cases src with
    | nil => rfl
    | cons c rest => rw [escapeLoop.eq_def]; simp [if_pos bound]

/-- The number of bytes that a lead byte announces. -/
def sequenceLength (lead : UInt8) : Nat :=
  if lead < 0x80 then 1 else if lead < 0xE0 then 2 else if lead < 0xF0 then 3 else 4

/-- A character as the escaper passes it on. -/
inductive KeptChar : Bytes → Prop
  | ascii {c : UInt8} : c ≤ 0x7E → isBareControl c = false → KeptChar [c]
  | wide {c c1 : UInt8} {rest : Bytes} : (∀ b ∈ c :: c1 :: rest, 0x80 ≤ b) →
      (c :: c1 :: rest).length = sequenceLength c → KeptChar (c :: c1 :: rest)

private lemma continuation_high (cont : isContinuation c = true) : 0x80 ≤ c := by
  simp only [isContinuation, Bool.and_eq_true, decide_eq_true_eq] at cont
  exact cont.1

variable (src : Bytes)

lemma keptChars_kept : ∀ char ∈ keptChars src, KeptChar char := by
  fun_induction keptChars src with
  | case1 | case5 => simp
  | case3 c rest ascii some ih =>
    exact forall_mem_cons.mpr ⟨.ascii ascii (Bool.not_eq_true _ ▸ some), ih⟩
  | case6 c high other c1 rest two ih =>
    simp only [Bool.and_eq_true, decide_eq_true_eq] at two
    have first : 0x80 ≤ c := UInt8.le_trans (by decide) two.1.1
    have below : c < 0xE0 := UInt8.lt_of_le_of_lt two.1.2 (by decide)
    refine forall_mem_cons.mpr ⟨.wide ?_ ?_, ih⟩
    · simp [first, continuation_high two.2]
    · rw [sequenceLength, if_neg (UInt8.not_lt.mpr first), if_pos below]
      rfl
  | case8 c high other c1 two c2 rest three ih =>
    simp only [Bool.and_eq_true, decide_eq_true_eq] at three
    have first : 0x80 ≤ c := UInt8.le_trans (by decide) three.1.1.1
    have above : 0xE0 ≤ c := three.1.1.1
    have below : c < 0xF0 := UInt8.lt_of_le_of_lt three.1.1.2 (by decide)
    refine forall_mem_cons.mpr ⟨.wide ?_ ?_, ih⟩
    · simp [first, continuation_high three.1.2, continuation_high three.2]
    · rw [sequenceLength, if_neg (UInt8.not_lt.mpr first), if_neg (UInt8.not_lt.mpr above),
        if_pos below]
      rfl
  | case10 c high other c1 two c2 three c3 rest four ih =>
    simp only [Bool.and_eq_true, decide_eq_true_eq] at four
    have first : 0x80 ≤ c := UInt8.le_trans (by decide) four.1.1.1.1
    have above : 0xF0 ≤ c := four.1.1.1.1
    have middle : 0xE0 ≤ c := UInt8.le_trans (by decide) above
    refine forall_mem_cons.mpr ⟨.wide ?_ ?_, ih⟩
    · simp [first, continuation_high four.1.1.2, continuation_high four.1.2,
        continuation_high four.2]
    · rw [sequenceLength, if_neg (UInt8.not_lt.mpr first), if_neg (UInt8.not_lt.mpr middle),
        if_neg (UInt8.not_lt.mpr above)]
      rfl
  | _ => assumption

lemma literal_high (high : ∀ b ∈ bytes, 0x80 ≤ b) (rest : Json.Literal body content) :
    Json.Literal (bytes ++ body) (bytes ++ content) := by
  induction bytes with
  | nil => exact rest
  | cons b bytes ih =>
    have above : 0x80 ≤ b := high b (by simp)
    refine literal_plain (ih fun other member => high other (by simp [member])) ?_ ?_ ?_
    · exact UInt8.le_trans (by decide) above
    · rintro rfl
      exact absurd above (by decide)
    · rintro rfl
      exact absurd above (by decide)

/-- A byte up to 0x7E has a short escape, is left out or stands for itself. -/
lemma escapeAscii_cases (c : UInt8) :
    (∃ e, Json.simpleEscape e = some c ∧ escapeAscii c = [0x5C, e]) ∨
      (isBareControl c = true ∧ escapeAscii c = []) ∨
      (0x20 ≤ c ∧ c ≠ 0x22 ∧ c ≠ 0x5C ∧ escapeAscii c = [c]) := by
  unfold escapeAscii
  split
  · next named => exact .inl ⟨c, by rcases named with rfl | rfl | rfl <;> rfl, rfl⟩
  · next plain =>
    simp only [not_or] at plain
    repeat' split
    all_goals first
      | next same => exact .inl ⟨_, same ▸ rfl, rfl⟩
      | next below => exact .inr (.inl ⟨by simp [isBareControl, *], rfl⟩)
      | next above => exact .inr (.inr ⟨UInt8.not_lt.mp above, plain.2.1, plain.1, rfl⟩)

lemma literal_char (valid : KeptChar char) (rest : Json.Literal body content) :
    Json.Literal (charText char ++ body) (char ++ content) := by
  cases valid with
  | wide high _ => exact literal_high high rest
  | @ascii c low some =>
    rw [charText]
    rcases escapeAscii_cases c with ⟨e, named, text⟩ | ⟨bare, -⟩ | ⟨high, quote, backslash, text⟩
    · rw [text]
      exact literal_escape rest named
    · simp [bare] at some
    · rw [text]
      exact literal_plain rest high quote backslash

/-- The text between the quotes denotes the bytes that were kept. -/
lemma literal_escaped : Json.Literal (escaped src) (kept src) := by
  have each := keptChars_kept src
  rw [escaped, kept]
  generalize keptChars src = chars at each ⊢
  induction chars with
  | nil => exact literal_nil
  | cons char rest ih =>
    rw [flatMap_cons, flatten_cons]
    exact literal_char (each char (by simp)) (ih fun other member => each other (by simp [member]))

/-- Line breaks are escaped. -/
lemma charText_line (valid : KeptChar char) : 0x0A ∉ charText char := by
  cases valid with
  | @wide c c1 rest high _ =>
    intro member
    exact absurd (high 0x0A member) (by decide)
  | @ascii c low some =>
    rw [charText]
    rcases escapeAscii_cases c with ⟨e, named, text⟩ | ⟨bare, -⟩ | ⟨high, -, -, text⟩
    · rintro member
      obtain rfl : 0x0A = e := by simpa [text] using member
      cases named
    · simp [bare] at some
    · intro member
      obtain rfl : 0x0A = c := by simpa [text] using member
      exact absurd high (by decide)

lemma escaped_line : 0x0A ∉ escaped src := by
  intro member
  obtain ⟨char, inside, here⟩ := mem_flatMap.mp member
  exact charText_line (keptChars_kept src char inside) here

/-- Digits are kept as they are. -/
lemma kept_printable (range : ∀ b ∈ text, 0x20 ≤ b ∧ b ≤ 0x7E) : kept text = text := by
  induction text with
  | nil => rfl
  | cons b rest ih =>
    obtain ⟨high, low⟩ := range b (by simp)
    have some : ¬isBareControl b = true := by simp [isBareControl, UInt8.not_lt.mpr high]
    have tail := ih fun other member => range other (by simp [member])
    rw [kept, keptChars.eq_def]
    simp only [if_pos low, if_neg some, flatten_cons]
    rw [← kept, tail]
    rfl

lemma kept_digits {digits : Bytes} (all : ∀ b ∈ digits, isDigit b = true) :
    kept digits = digits := by
  refine kept_printable fun b member => ?_
  have digit := all b member
  simp only [isDigit, Bool.and_eq_true, decide_eq_true_eq] at digit
  exact ⟨UInt8.le_trans (by decide) digit.1, UInt8.le_trans digit.2 (by decide)⟩

end Ndpi.Refinement
