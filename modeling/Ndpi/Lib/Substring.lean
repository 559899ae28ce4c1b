import Mathlib.Data.List.Basic

/-!
# Searching a text for another

The place of the first occurrence of a text in another one, and of a symbol in it,
with what their answers say about how the text is put together.
-/
namespace Ndpi.Lib
open List

variable {α : Type*} [DecidableEq α]

/-- Where `needle` first occurs in a text. -/
def firstOccurrence (needle : List α) : List α → Option Nat
  | [] => if needle = [] then some 0 else none
  | c :: text =>
    if needle <+: c :: text then some 0 else (firstOccurrence needle text).map (· + 1)

/-- `text` has `needle` behind its first `place` symbols, and nowhere earlier. -/
structure FirstAt (needle text : List α) (place : Nat) : Prop where
  inside : place ≤ text.length
  there : needle <+: text.drop place
  earlier : ∀ j < place, ¬needle <+: text.drop j

omit [DecidableEq α] in
lemma firstAt_cons (absent : ¬needle <+: c :: text) :
    FirstAt needle (c :: text) (place + 1) ↔ FirstAt needle text place := by
  constructor
  · rintro ⟨inside, there, earlier⟩
    exact ⟨by simpa using inside, there, fun j before => earlier (j + 1) (by omega)⟩
  · rintro ⟨inside, there, earlier⟩
    refine ⟨by simpa using inside, there, fun j before => ?_⟩
    cases j with
    | zero => exact absent
    | succ j => exact earlier j (by omega)

lemma firstOccurrence_eq_some_iff {needle text : List α} {place : Nat} :
    firstOccurrence needle text = some place ↔ FirstAt needle text place := by
  induction text generalizing place with
  | nil =>
    unfold firstOccurrence
    split
    · next empty =>
      subst empty
      constructor
      · intro found
        cases found
        exact ⟨Nat.le_refl 0, nil_prefix, fun j before => absurd before (Nat.not_lt_zero j)⟩
      · rintro ⟨inside, -, -⟩
        rw [Nat.le_zero.mp inside]
    · next given =>
      constructor
      · intro found
        cases found
      · rintro ⟨-, there, -⟩
        exact absurd (by simpa using there) given
  | cons c text ih =>
    unfold firstOccurrence
    split
    · next present =>
      constructor
      · intro found
        cases found
        exact ⟨Nat.zero_le _, present, fun j before => absurd before (Nat.not_lt_zero j)⟩
      · rintro ⟨-, -, earlier⟩
        cases place with
        | zero => rfl
        | succ place => exact absurd present (earlier 0 (Nat.succ_pos place))
    · next absent =>
      cases place with
      | zero =>
        constructor
        · intro found
          cases found' : firstOccurrence needle text with
          | none => simp [found'] at found
          | some j => simp [found'] at found
        · rintro ⟨-, there, -⟩
          exact absurd there absent
      | succ place =>
        rw [firstAt_cons absent, ← ih]
        simp

/-- The first place of a symbol is at most `place` when it is among the first
`place + 1` symbols. -/
lemma idxOf_le_iff_mem_take {text : List α} {c : α} {place : Nat} (present : c ∈ text) :
    text.idxOf c ≤ place ↔ c ∈ text.take (place + 1) := by
  induction text generalizing place with
  | nil => cases present
  | cons d text ih =>
    by_cases same : d = c
    · subst same
      simp
    · have later : c ∈ text := by
        rcases mem_cons.mp present with eq | later
        · exact absurd eq.symm same
        · exact later
      cases place with
      | zero => simp [idxOf_cons_ne _ same, Ne.symm same]
      | succ place =>
        rw [idxOf_cons_ne _ same, take_succ_cons, mem_cons, Nat.succ_le_succ_iff, ih later]
        exact ⟨.inr, fun either => either.resolve_left (Ne.symm same)⟩

end Ndpi.Lib
