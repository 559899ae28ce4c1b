import Mathlib.Data.List.Basic

/-!
# Byte memory with a record of stray stores

One heap allocation as the list of its bytes. A store aimed at an index outside
the allocation changes no byte and is remembered in `stray`, so that a caller's
memory safety is a statement about its result: nothing was added to `stray`.
-/
namespace Ndpi.Lib
open List

abbrev Bytes := List UInt8

structure Memory where
  cells : Bytes
  stray : List Nat
  deriving DecidableEq, Repr

namespace Memory

def store (m : Memory) (index : Nat) (byte : UInt8) : Memory :=
  if index < m.cells.length then { m with cells := m.cells.set index byte }
  else { m with stray := m.stray ++ [index] }

/-- Consecutive stores in increasing address order. -/
def storeAll (m : Memory) (index : Nat) : Bytes → Memory
  | [] => m
  | byte :: rest => (m.store index byte).storeAll (index + 1) rest

/-- The allocation grown or shrunk to `size` bytes. The first bytes are kept,
the contents of the others are whatever `fresh` supplies. -/
def resize (m : Memory) (fresh : Nat → UInt8) (size : Nat) : Memory :=
  { m with cells := (List.range size).map fun i => m.cells[i]?.getD (fresh i) }

@[simp] lemma store_length (m : Memory) (index : Nat) (byte : UInt8) :
    (m.store index byte).cells.length = m.cells.length := by
  unfold store
  split <;> simp

@[simp] lemma storeAll_length (bytes : Bytes) (m : Memory) (index : Nat) :
    (m.storeAll index bytes).cells.length = m.cells.length := by
  induction bytes generalizing m index with
  | nil => rfl
  | cons byte rest ih => rw [storeAll, ih, store_length]

@[simp] lemma resize_length (m : Memory) (fresh : Nat → UInt8) (size : Nat) :
    (m.resize fresh size).cells.length = size := by simp [resize]

@[simp] lemma resize_stray (m : Memory) (fresh : Nat → UInt8) (size : Nat) :
    (m.resize fresh size).stray = m.stray := rfl

variable (m : Memory) (bytes : Bytes)

lemma store_inside (index : Nat) (byte : UInt8) (inside : index < m.cells.length) :
    m.store index byte = { m with cells := m.cells.set index byte } := if_pos inside

lemma storeAll_append (index : Nat) (first rest : Bytes) :
    m.storeAll index (first ++ rest) =
      (m.storeAll index first).storeAll (index + first.length) rest := by
  induction first generalizing m index with
  | nil => rfl
  | cons byte first ih =>
    simp only [cons_append, storeAll, length_cons, ih]
    congr 1
    omega

/-- Every store of an interval that ends inside the allocation is recorded in
the bytes and none in `stray`. -/
lemma storeAll_inside (m : Memory) (index : Nat)
    (inside : index + bytes.length ≤ m.cells.length) :
    (m.storeAll index bytes).stray = m.stray := by
  induction bytes generalizing m index with
  | nil => rfl
  | cons byte rest ih =>
    simp only [length_cons] at inside
    rw [storeAll, ih _ _ (by rw [store_length]; omega), store_inside _ _ _ (by omega)]

/-- Stray stores are only ever added. -/
lemma storeAll_stray (m : Memory) (index : Nat) : m.stray <+: (m.storeAll index bytes).stray := by
  induction bytes generalizing m index with
  | nil => exact prefix_refl _
  | cons byte rest ih =>
    refine List.IsPrefix.trans ?_ (ih _ _)
    unfold store
    split
    · exact prefix_refl _
    · exact prefix_append _ _

/-- Conversely a run of stores that strays nowhere ends inside the allocation. -/
lemma storeAll_clean (m : Memory) (index : Nat) (clean : (m.storeAll index bytes).stray = []) :
    m.stray = [] ∧ (bytes ≠ [] → index + bytes.length ≤ m.cells.length) := by
  induction bytes generalizing m index with
  | nil => exact ⟨clean, fun h => absurd rfl h⟩
  | cons byte rest ih =>
    obtain ⟨first, later⟩ := ih _ _ clean
    rw [store_length] at later
    by_cases inside : index < m.cells.length
    · rw [store_inside _ _ _ inside] at first
      refine ⟨first, fun _ => ?_⟩
      by_cases empty : rest = []
      · subst empty
        exact inside
      · have bound := later empty
        simp only [length_cons]
        omega
    · simp [store, inside] at first

lemma store_clean (index : Nat) (byte : UInt8) (clean : (m.store index byte).stray = []) :
    m.stray = [] ∧ index < m.cells.length := by
  obtain ⟨before, inside⟩ := storeAll_clean [byte] m index clean
  exact ⟨before, inside (by simp)⟩

/-- Bytes below the first address stored to are untouched, wherever the stores go. -/
lemma storeAll_take (m : Memory) (index bound : Nat) (below : bound ≤ index) :
    (m.storeAll index bytes).cells.take bound = m.cells.take bound := by
  induction bytes generalizing m index with
  | nil => rfl
  | cons byte rest ih =>
    rw [storeAll, ih _ _ (by omega)]
    unfold store
    split
    · simp only [take_set]
      rw [set_eq_of_length_le]
      simp only [length_take]
      omega
    · rfl

lemma store_take (byte : UInt8) (below : bound ≤ index) :
    (m.store index byte).cells.take bound = m.cells.take bound :=
  storeAll_take [byte] m index bound below

/-- What the stored interval reads back as, together with everything before it. -/
lemma storeAll_take_append (m : Memory) (index : Nat)
    (inside : index + bytes.length ≤ m.cells.length) :
    (m.storeAll index bytes).cells.take (index + bytes.length) =
      m.cells.take index ++ bytes := by
  induction bytes generalizing m index with
  | nil => simp [storeAll]
  | cons byte rest ih =>
    simp only [length_cons] at inside ⊢
    have step := ih (m.store index byte) (index + 1) (by rw [store_length]; omega)
    have shift : index + (rest.length + 1) = index + 1 + rest.length := by omega
    rw [storeAll, shift, step, store_inside _ _ _ (by omega)]
    have split : (m.cells.set index byte).take (index + 1) = m.cells.take index ++ [byte] := by
      rw [take_succ_eq_append_getElem (by simp; omega)]
      rw [take_set, set_eq_of_length_le (length_take_le _ _)]
      simp
    rw [split, append_assoc]
    rfl

/-- Each byte after a run of stores that ends inside the allocation. -/
lemma storeAll_getElem? (bytes : Bytes) (m : Memory) (index i : Nat)
    (inside : index + bytes.length ≤ m.cells.length) :
    (m.storeAll index bytes).cells[i]? =
      if index ≤ i ∧ i < index + bytes.length then bytes[i - index]? else m.cells[i]? := by
  induction bytes generalizing m index with
  | nil =>
    have none : ¬(index ≤ i ∧ i < index + 0) := by omega
    rw [storeAll, length_nil, if_neg none]
  | cons byte rest ih =>
    simp only [length_cons] at inside ⊢
    rw [storeAll, ih _ _ (by rw [store_length]; omega), store_inside _ _ _ (by omega)]
    by_cases first : i = index
    · subst first
      rw [if_neg (by omega), if_pos (by omega), getElem?_set_self (by omega), Nat.sub_self,
        getElem?_cons_zero]
    · rw [getElem?_set_ne (Ne.symm first)]
      by_cases later : index + 1 ≤ i ∧ i < index + 1 + rest.length
      · have shift : i - index = i - (index + 1) + 1 := by omega
        rw [if_pos later, if_pos (by omega), shift, getElem?_cons_succ]
      · rw [if_neg later, if_neg (by omega)]

/-- Growing, or shrinking to no less than `bound`, keeps the first bytes. -/
lemma resize_take (fresh : Nat → UInt8) (size bound : Nat) (kept : bound ≤ m.cells.length)
    (room : bound ≤ size) :
    (m.resize fresh size).cells.take bound = m.cells.take bound := by
  apply ext_getElem
  · simp only [resize, length_take, length_map, length_range]
    omega
  · intro i hi _
    simp only [resize, length_take, length_map, length_range] at hi
    simp only [resize, getElem_take, getElem_map, getElem_range]
    rw [getElem?_eq_getElem (by omega), Option.getD_some]

end Memory
end Ndpi.Lib
