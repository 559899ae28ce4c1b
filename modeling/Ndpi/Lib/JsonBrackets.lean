import Ndpi.Lib.JsonReads

/-!
# Bracket balance of accepted JSON texts

`net` is the number of `[` minus the number of `]` outside string literals. It
is zero on every text that `Json.read` accepts, which refutes broken documents
without following the reader through them.
-/
namespace Ndpi.Lib.Json
open List

/-- In the text, in a string literal, or behind a backslash in one. -/
inductive Lex where
  | text | string | escape
  deriving DecidableEq, Repr

def Lex.next : Lex → UInt8 → Lex
  | .text, b => if b = 0x22 then .string else .text
  | .string, b => if b = 0x22 then .text else if b = 0x5C then .escape else .string
  | .escape, _ => .string

/-- What a byte adds to the count. -/
def Lex.weight : Lex → UInt8 → Int
  | .text, b => if b = 0x5B then 1 else if b = 0x5D then -1 else 0
  | _, _ => 0

/-- The square brackets opened less those closed. -/
def net : Lex → Bytes → Int
  | _, [] => 0
  | state, b :: rest => state.weight b + net (state.next b) rest

/-- Neither a quote nor a square bracket. -/
def Neutral (b : UInt8) : Prop := b ≠ 0x22 ∧ b ≠ 0x5B ∧ b ≠ 0x5D

instance (b : UInt8) : Decidable (Neutral b) :=
  inferInstanceAs (Decidable (b ≠ 0x22 ∧ b ≠ 0x5B ∧ b ≠ 0x5D))

variable (text after : Bytes) (rest : Bytes) {b : UInt8}

lemma net_neutral (neutral : Neutral b) : net .text (b :: rest) = net .text rest := by
  simp [net, Lex.weight, Lex.next, neutral.1, neutral.2.1, neutral.2.2]

/-- Neutral bytes may be skipped. -/
lemma net_dropWhile (p : UInt8 → Bool) (neutral : ∀ b, p b = true → Neutral b) (text : Bytes) :
    net .text (text.dropWhile p) = net .text text := by
  induction text with
  | nil => rfl
  | cons b rest ih =>
    cases h : p b with
    | true => rw [dropWhile_cons_of_pos h, ih, net_neutral rest (neutral b h)]
    | false => rw [dropWhile_cons_of_neg (by simp [h])]

private lemma snd_eq {b : β} (h : some (a, b) = some (c, d)) :
    b = d := congrArg Prod.snd (Option.some.inj h)

lemma digit_neutral (b : UInt8) (digit : isDigit b = true) : Neutral b := by
  refine ⟨?_, ?_, ?_⟩ <;> rintro rfl <;> simp [isDigit] at digit

lemma space_neutral (b : UInt8) (space : isSpace b = true) : Neutral b := by
  refine ⟨?_, ?_, ?_⟩ <;> rintro rfl <;> simp [isSpace] at space

lemma net_skipSpace (text : Bytes) : net .text (skipSpace text) = net .text text :=
  net_dropWhile isSpace space_neutral text

/-- A hexadecimal digit ends no literal. -/
private lemma hex_plain (hex : hexValue b = some value) : Lex.next .string b = .string := by
  have notQuote : b ≠ 0x22 := by rintro rfl; simp [hexValue] at hex
  have notBackslash : b ≠ 0x5C := by rintro rfl; simp [hexValue] at hex
  simp [Lex.next, notQuote, notBackslash]

/-- Brackets inside a string literal do not count. -/
lemma readString_net (text content after : Bytes) (h : readString text = some (content, after)) :
    net .string text = net .text after := by
  fun_induction readString text generalizing content after with
  | case2 rest => simp [net, Lex.weight, Lex.next, snd_eq h]
  | case4 h1 h2 h3 h4 rest a b c d inner tail read hex4 hex3 hex2 hex1 _ ih =>
    have step := ih inner tail read
    simp [net, Lex.weight, show Lex.next .string 0x5C = .escape from rfl,
      show Lex.next .escape 0x75 = .string from rfl, hex_plain hex1, hex_plain hex2,
      hex_plain hex3, hex_plain hex4, step, snd_eq h]
  | case7 e rest notUnicode value inner tail read named _ ih =>
    have step := ih inner tail read
    simp [net, Lex.weight, Lex.next, step, snd_eq h]
  | case10 b rest notQuote notBackslash high inner tail read ih =>
    have step := ih inner tail read
    simp [net, Lex.weight, Lex.next, notQuote, notBackslash, step, snd_eq h]
  | _ => cases h

/-- The parts of a number are neutral. -/
lemma readFraction_net (text digits after : Bytes)
    (h : readFraction text = some (digits, after)) : net .text text = net .text after := by
  cases text with
  | nil => simp_all [readFraction]
  | cons b rest =>
    rw [readFraction] at h
    split at h
    · next point =>
      split at h
      · cases h
      · rw [← snd_eq h, net_dropWhile isDigit digit_neutral, point, net_neutral rest (by decide)]
    · rw [snd_eq h]

lemma dropSign_net (text : Bytes) : net .text (dropSign text) = net .text text := by
  unfold dropSign
  split
  · next signed =>
    cases text with
    | nil => rfl
    | cons b rest =>
      simp only [head?_cons, Option.some.injEq] at signed
      rcases signed with rfl | rfl <;> exact (net_neutral rest (by decide)).symm
  · rfl

lemma readExponent_net (h : readExponent text = some (exponent, after)) :
    net .text text = net .text after := by
  cases text with
  | nil => simp_all [readExponent]
  | cons b rest =>
    rw [readExponent] at h
    split at h
    · next mark =>
      have head : net .text (b :: rest) = net .text rest := by
        rcases mark with rfl | rfl <;> exact net_neutral rest (by decide)
      split at h
      · cases h
      · rw [head, ← snd_eq h, net_dropWhile isDigit digit_neutral, dropSign_net]
    · rw [snd_eq h]

lemma readUnsigned_net (h : readUnsigned text = some (mantissa, exponent, after)) :
    net .text text = net .text after := by
  unfold readUnsigned at h
  dsimp only at h
  split at h
  · cases h
  · split at h
    · cases h
    · next fraction rest fractionRead =>
      split at h
      · cases h
      · next power tail exponentRead =>
        simp only [Option.some.injEq, Prod.mk.injEq] at h
        rw [← net_dropWhile isDigit digit_neutral text, readFraction_net _ _ _ fractionRead,
          readExponent_net _ _ exponentRead, h.2.2]

lemma readNumber_net (h : readNumber text = some (value, after)) :
    net .text text = net .text after := by
  cases text with
  | nil => cases h
  | cons b rest =>
    unfold readNumber at h
    dsimp only at h
    split at h
    · next minus =>
      split at h
      · next mantissa exponent tail read =>
        rw [minus, net_neutral rest (by decide), readUnsigned_net _ _ read, snd_eq h]
      · cases h
    · split at h
      · next mantissa exponent tail read =>
        rw [readUnsigned_net _ _ read, snd_eq h]
      · cases h

/-- So are `true`, `false` and `null`. -/
lemma readName_net (h : readName text = some (value, after)) :
    net .text text = net .text after := by
  unfold readName at h
  repeat' split at h
  all_goals first
    | next name =>
      obtain ⟨rest, rfl⟩ := name
      rw [← snd_eq h]
      simp [net, Lex.weight, Lex.next]
    | cases h

/-- The three readers at one fuel level; only the elements of an array consume
an unmatched bracket, the one that closes it. -/
structure Balanced (fuel : Nat) : Prop where
  value : ∀ text value after, readValue fuel text = some (value, after) →
    net .text text = net .text after
  members : ∀ text members after, readMembers fuel text = some (members, after) →
    net .text text = net .text after
  elements : ∀ text elements after, readElements fuel text = some (elements, after) →
    net .text text = -1 + net .text after

/-- Spaces do not count. -/
private lemma net_head {text rest : Bytes} (solid : skipSpace text = b :: rest) :
    net .text text = net .text (b :: rest) := by rw [← net_skipSpace text, solid]

private lemma net_tail {text : Bytes} (first : (skipSpace text).head? = some b) :
    net .text text = net .text (b :: (skipSpace text).tail) := by
  cases solid : skipSpace text with
  | nil => simp [solid] at first
  | cons c rest =>
    simp only [solid, head?_cons, Option.some.injEq] at first
    rw [net_head solid, first]
    rfl

lemma net_quote : net .text (0x22 :: rest) = net .string rest := by
  simp [net, Lex.weight, Lex.next]

lemma net_open : net .text (0x5B :: rest) = 1 + net .text rest := by
  simp [net, Lex.weight, Lex.next]

lemma net_close : net .text (0x5D :: rest) = -1 + net .text rest := by
  simp [net, Lex.weight, Lex.next]

variable {text after : Bytes} {fuel : Nat}

/-- A value closes what it opens, if its parts do. -/
private lemma readValue_balanced (below : Balanced fuel)
    (h : readValue (fuel + 1) text = some (value, after)) :
    net .text text = net .text after := by
  rw [readValue] at h
  split at h
  · cases h
  · next b rest solid =>
    rw [net_head solid]
    split at h
    · next quote =>
      split at h
      · next content tail read =>
        rw [quote, net_quote, readString_net _ _ _ read, snd_eq h]
      · cases h
    · split at h
      · next brace =>
        rw [brace, net_neutral rest (by decide)]
        split at h
        · next empty =>
          rw [net_tail empty, net_neutral _ (by decide), snd_eq h]
        · split at h
          · next members tail read =>
            rw [below.members _ _ _ read, snd_eq h]
          · cases h
      · split at h
        · next bracket =>
          rw [bracket, net_open]
          split at h
          · next empty =>
            rw [net_tail empty, net_close, snd_eq h]
            omega
          · split at h
            · next elements tail read =>
              rw [below.elements _ _ _ read, snd_eq h]
              omega
            · cases h
        · split at h
          · exact readName_net _ _ h
          · exact readNumber_net _ _ h

/-- So do the members of an object. -/
private lemma readMembers_balanced (below : Balanced fuel)
    (h : readMembers (fuel + 1) text = some (members, after)) :
    net .text text = net .text after := by
  rw [readMembers] at h
  split at h
  · cases h
  · next b rest solid =>
    split at h
    · next quote =>
      split at h
      · cases h
      · next name nameTail nameRead =>
        rw [net_head solid, quote, net_quote, readString_net _ _ _ nameRead]
        split at h
        · cases h
        · next c colonTail colon =>
          split at h
          · next isColon =>
            rw [net_head colon, isColon, net_neutral _ (by decide)]
            split at h
            · cases h
            · next value valueTail valueRead =>
              rw [below.value _ _ _ valueRead]
              split at h
              · cases h
              · next d last separator =>
                rw [net_head separator]
                split at h
                · next comma =>
                  rw [comma, net_neutral _ (by decide)]
                  split at h
                  · next others tail read =>
                    rw [below.members _ _ _ read, snd_eq h]
                  · cases h
                · split at h
                  · next brace =>
                    rw [brace, net_neutral _ (by decide), snd_eq h]
                  · cases h
          · cases h
    · cases h

/-- The elements of an array close its bracket. -/
private lemma readElements_balanced (below : Balanced fuel)
    (h : readElements (fuel + 1) text = some (elements, after)) :
    net .text text = -1 + net .text after := by
  rw [readElements] at h
  split at h
  · cases h
  · next value rest read =>
    rw [below.value _ _ _ read]
    split at h
    · cases h
    · next b tail separator =>
      rw [net_head separator]
      split at h
      · next comma =>
        rw [comma, net_neutral _ (by decide)]
        split at h
        · next others last others_read =>
          rw [below.elements _ _ _ others_read, snd_eq h]
        · cases h
      · split at h
        · next bracket =>
          rw [bracket, net_close, snd_eq h]
        · cases h

lemma balanced (fuel : Nat) : Balanced fuel := by
  induction fuel with
  | zero =>
    constructor <;> intro text value after h
    · simp [readValue] at h
    · simp [readMembers] at h
    · simp [readElements] at h
  | succ fuel ih =>
    exact ⟨fun text value after => readValue_balanced ih,
      fun text members after => readMembers_balanced ih,
      fun text elements after => readElements_balanced ih⟩

variable {text : Bytes}

/-- An accepted text closes every bracket it opens. -/
lemma net_of_read (h : read text = some value) : net .text text = 0 := by
  unfold read at h
  split at h
  · next v rest whole =>
    split at h
    · next blank =>
      rw [(balanced _).value _ _ _ whole, ← net_skipSpace rest, blank]
      rfl
    · cases h
  · cases h

/-- A text that starts and ends outside string literals and opens `count` more
brackets than it closes. -/
def Weighs (text : Bytes) (count : Int) : Prop :=
  ∀ after, net .text (text ++ after) = count + net .text after

/-- The counts of the parts add up. -/
lemma weighs_append {first rest : Bytes} {count more : Int} (here : Weighs first count)
    (there : Weighs rest more) : Weighs (first ++ rest) (count + more) := by
  intro after
  rw [append_assoc, here, there]
  omega

lemma weighs_neutral (neutral : ∀ b ∈ text, Neutral b) : Weighs text 0 := by
  intro after
  induction text with
  | nil => simp
  | cons b rest ih =>
    rw [cons_append, net_neutral _ (neutral b (by simp))]
    exact ih fun other member => neutral other (by simp [member])

lemma weighs_plain (plain : (text.all fun b => decide (Neutral b)) = true) :
    Weighs text 0 :=
  weighs_neutral (by simpa using plain)

lemma weighs_open : Weighs [0x5B] 1 := net_open

lemma weighs_close : Weighs [0x5D] (-1) := net_close

/-- A string literal counts for nothing. -/
lemma weighs_literal (literal : Literal body content) : Weighs (0x22 :: body ++ [0x22]) 0 := by
  intro after
  have text : 0x22 :: body ++ [0x22] ++ after = 0x22 :: (body ++ 0x22 :: after) := by simp
  rw [text, net_quote, readString_net _ _ _ (literal after)]
  omega

/-- A text that is out of balance is no JSON text. -/
lemma read_of_weighs {count : Int} (weighs : Weighs text count) (unbalanced : count ≠ 0) :
    read text = none := by
  cases outcome : read text with
  | none => rfl
  | some value =>
    have balance := net_of_read outcome
    have whole := weighs []
    rw [append_nil, balance, net] at whole
    omega

end Ndpi.Lib.Json
