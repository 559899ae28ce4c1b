import Ndpi.Lib.Words

/-!
# Bit fields of a word

Values that are shifted to their offsets and joined with a word by bitwise or, and
read back by shifts and masks. Fields are laid out from the high end down: each lies
below the one before, and all of them below the bits that the word itself has.
-/
namespace Ndpi.Lib
open List

def putFields (word : Nat) : List Nat → List Nat → Nat
  | value :: values, offset :: offsets => putFields (word ||| value <<< offset) values offsets
  | _, _ => word

def getFields (word : Nat) (offsets masks : List Nat) : List Nat :=
  (offsets.zip masks).map fun field => (word >>> field.1) &&& field.2

/-- The fields lie one below the other and below the bit `top`. -/
def Descending : Nat → List Nat → List Nat → Prop
  | top, offset :: offsets, width :: widths => offset + width ≤ top ∧ Descending offset offsets widths
  | _, [], [] => True
  | _, _, _ => False

instance instDecidableDescending :
    (top : Nat) → (offsets widths : List Nat) → Decidable (Descending top offsets widths)
  | _, offset :: offsets, _ :: widths =>
    @instDecidableAnd _ _ _ (instDecidableDescending offset offsets widths)
  | _, [], [] => .isTrue trivial
  | _, [], _ :: _ => .isFalse id
  | _, _ :: _, [] => .isFalse id

variable {top : Nat}

lemma Descending.length_eq (layout : Descending top offsets widths) :
    offsets.length = widths.length := by
  induction offsets generalizing top widths with
  | nil =>
    match widths, layout with
    | [], _ => rfl
  | cons offset offsets ih =>
    match widths, layout with
    | width :: widths, ⟨_, layout⟩ => simp [ih layout]

/-- Each value is within the mask of its field. -/
def Fit : List Nat → List Nat → Prop
  | value :: values, width :: widths => value < 2 ^ width ∧ Fit values widths
  | _, [] => True
  | [], _ :: _ => False

lemma putFields_nil : putFields word values [] = word := by
  cases values <;> rfl

variable (high : Nat)

lemma or_shiftLeft {top : Nat} (below : offset + width ≤ top) (fits : value < 2 ^ width) :
    2 ^ top * high ||| value <<< offset = 2 ^ offset * (2 ^ (top - offset) * high + value) := by
  have room : value * 2 ^ offset < 2 ^ top := by
    calc value * 2 ^ offset < 2 ^ width * 2 ^ offset := by gcongr
      _ = 2 ^ (offset + width) := by rw [← Nat.pow_add, Nat.add_comm]
      _ ≤ 2 ^ top := Nat.pow_le_pow_right (by decide) below
  have split : 2 ^ top = 2 ^ offset * 2 ^ (top - offset) := by
    rw [← Nat.pow_add, Nat.add_sub_cancel' (by omega)]
  rw [Nat.shiftLeft_eq, ← Nat.two_pow_add_eq_or_of_lt room, split, Nat.mul_add, Nat.mul_assoc,
    Nat.mul_comm value]

/-- Fields do not reach the bits above them. -/
lemma putFields_high (layout : Descending top offsets widths) (fit : Fit values widths) :
    putFields (2 ^ top * high) values offsets / 2 ^ top = high := by
  induction offsets generalizing top high values widths with
  | nil =>
    rw [putFields_nil]
    exact Nat.mul_div_cancel_left _ (by positivity)
  | cons offset offsets ih =>
    match widths, values, layout, fit with
    | width :: widths, value :: values, ⟨below, layout⟩, ⟨fits, fit⟩ =>
      have split : 2 ^ top = 2 ^ offset * 2 ^ (top - offset) := by
        rw [← Nat.pow_add, Nat.add_sub_cancel' (by omega)]
      have small : value < 2 ^ (top - offset) :=
        fits.trans_le (Nat.pow_le_pow_right (by decide) (by omega))
      rw [putFields, or_shiftLeft high below fits, split, ← Nat.div_div_eq_div_mul, ih _ layout fit,
        Nat.mul_add_div (by positivity), Nat.div_eq_of_lt small, Nat.add_zero]

/-- What was put into the fields is read back, whatever stands in bits that belong to
none of them. -/
lemma getFields_putFields (layout : Descending top offsets widths) (fit : Fit values widths)
    (isMask : masks = widths.map (2 ^ · - 1)) (unused : Nat)
    (placed : ∀ offset ∈ offsets, unused ≤ offset)
    (same : word / 2 ^ unused = putFields (2 ^ top * high) values offsets / 2 ^ unused) :
    getFields word offsets masks = values.take offsets.length := by
  induction offsets generalizing top high values widths masks with
  | nil => simp [getFields]
  | cons offset offsets ih =>
    match widths, values, layout, fit with
    | width :: widths, value :: values, ⟨below, layout⟩, ⟨fits, fit⟩ =>
      rw [putFields, or_shiftLeft high below fits] at same
      have above : word / 2 ^ offset = 2 ^ (top - offset) * high + value := by
        have down : 2 ^ offset = 2 ^ unused * 2 ^ (offset - unused) := by
          rw [← Nat.pow_add, Nat.add_sub_cancel' (placed offset mem_cons_self)]
        have rest := putFields_high (2 ^ (top - offset) * high + value) layout fit
        rw [← rest]
        nth_rewrite 1 [down]
        rw [← Nat.div_div_eq_div_mul, same, Nat.div_div_eq_div_mul, ← down]
      have value_ : (word >>> offset) &&& (2 ^ width - 1) = value := by
        have multiple : 2 ^ (top - offset) = 2 ^ width * 2 ^ (top - offset - width) := by
          rw [← Nat.pow_add]
          congr 1
          omega
        rw [Nat.shiftRight_eq_div_pow, above, Nat.and_two_pow_sub_one_eq_mod, multiple, mul_assoc,
          Nat.mul_add_mod, Nat.mod_eq_of_lt fits]
      subst isMask
      have tail := ih (2 ^ (top - offset) * high + value) layout fit rfl
        (fun o mem => placed o (mem_cons_of_mem _ mem)) same
      rw [getFields, map_cons, zip_cons_cons, map_cons, value_]
      exact congrArg (value :: ·) tail

end Ndpi.Lib
