import Ndpi.Guarantees.JsonRecords

/-!
# The names of the members

An item is named by its key, except that a key of digits is first converted with `atoi`. So
two keys of digits can name two members alike; only a double is written under any key as it is.
-/
namespace Ndpi.Guarantees.JsonNames
open Lib Source.Serialization Refinement List

/-- An item under a key of printable ASCII characters. -/
structure Item where
  key : KeyArg
  value : Scalar
  printable : key.bytes.all fun b => 0x20 ≤ b && b ≤ 0x7E

def Item.op (item : Item) : Op := .item (.binary item.key) item.value

def Item.isDouble (item : Item) : Bool :=
  match item.value with
  | .double _ => true
  | _ => false

def Item.isNumber (item : Item) : Bool := Source.Serialization.isNumber item.key.bytes

/-- The name of the member that is written for the item. -/
def Item.name (item : Item) : Bytes :=
  if item.isNumber && !item.isDouble then decimal (atoi item.key.memory).toNat
  else item.key.bytes

/-- The key of the form is the text of the name. -/
lemma jsonForm_named (item : Item) :
    ∃ key value, Op.jsonForm item.op = some (.item key value) ∧
      NameText (key.text 0 0) item.name := by
  obtain ⟨key, value, printable⟩ := item
  have kept := @kept_printable key.bytes (by simpa using printable)
  cases value with
  | double printed =>
    refine ⟨_, _, rfl, ?_⟩
    have named := nameText_quoted key.bytes
    rw [kept] at named
    simpa [Item.name, Item.isDouble, JsonKey.text] using named
  | _ =>
    refine ⟨_, _, rfl, ?_⟩
    have named := nameText_key (.binary key)
    rw [keyName, kept] at named
    simpa [Item.name, Item.isDouble, Item.isNumber] using named

/-- Both keys are digits, and what they are converted to is the same: both numbers, or the
number of one and the key of the other, which is that of a double. -/
def Collide (first second : Item) : Prop :=
  first.isNumber ∧ second.isNumber ∧
    match first.isDouble, second.isDouble with
    | false, false => atoi first.key.memory = atoi second.key.memory
    | false, true => decimal (atoi first.key.memory).toNat = second.key.bytes
    | true, false => first.key.bytes = decimal (atoi second.key.memory).toNat
    | true, true => False

lemma isNumber_name (item : Item) : Source.Serialization.isNumber item.name = item.isNumber := by
  unfold Item.name
  split
  · next number =>
    exact (all_eq_true.mpr (decimal_digits _)).trans (Bool.and_eq_true_iff.mp number).1.symm
  · rfl

lemma decimal_inj (a b : UInt32) : decimal a.toNat = decimal b.toNat ↔ a = b := by
  refine ⟨fun same => ?_, fun same => by rw [same]⟩
  have values := congrArg digitsValue same
  rw [digitsValue_decimal, digitsValue_decimal] at values
  exact UInt32.toNat_inj.mp values

/-- Different keys are named alike exactly if they collide. -/
lemma name_eq_iff (differ : first.key.bytes ≠ second.key.bytes) :
    first.name = second.name ↔ Collide first second := by
  have both (same : first.name = second.name) : first.isNumber = second.isNumber := by
    rw [← isNumber_name, ← isNumber_name, same]
  cases number : first.isNumber <;> cases number' : second.isNumber
  case true.true =>
    cases double : first.isDouble <;> cases double' : second.isDouble <;>
      simp [Collide, Item.name, number, number', double, double', differ, decimal_inj]
  case false.false => simp [Collide, Item.name, number, number', differ]
  all_goals
    refine iff_of_false (fun same => ?_) (by simp [Collide, number, number'])
    simpa [number, number'] using both same

/-- The texts of the names, each with the text of the value behind it. -/
def Named : List Item → List (Bytes × Bytes) → Prop :=
  List.Forall₂ fun item piece => NameText piece.1 item.name

/-- The members, each with a comma before it. -/
def later (pieces : List (Bytes × Bytes)) : Bytes :=
  (pieces.map fun piece => 0x2C :: (piece.1 ++ piece.2)).flatten

lemma later_items (items : List Item) (text : Bytes) :
    ∃ pieces, Named items pieces ∧
      (opened false { comma := true, notEmpty := true } text).steps false
          (formsOf (items.map Item.op)) =
        opened false { comma := true, notEmpty := true } (text ++ later pieces) := by
  induction items generalizing text with
  | nil => exact ⟨[], .nil, by simp [formsOf, JsonText.steps, later]⟩
  | cons item rest ih =>
    obtain ⟨key, value, form, named⟩ := jsonForm_named item
    obtain ⟨pieces, described, result⟩ := ih (text ++ 0x2C :: (key.text 0 0 ++ value.text 0 0))
    refine ⟨(key.text 0 0, value.text 0 0) :: pieces, .cons named described, ?_⟩
    rw [map_cons, formsOf_cons form, steps_cons, step_item rfl]
    simpa [openedFlags, opening, later] using result

end Ndpi.Guarantees.JsonNames
