import Mathlib.Order.Lattice

/-!
# Unbalanced search trees

Binary trees that are searched with a comparison function. Which node a search
ends at depends only on the signs of the comparisons on its way, so what a
lookup finds after an insertion or a change needs no ordering invariant, only
that the comparison function orders its arguments by some index.
-/
namespace Ndpi.Lib
open Option

inductive SearchTree (α : Type*) where
  | nil
  | node (key : α) (left right : SearchTree α)

namespace SearchTree

variable {α κ : Type*} [LinearOrder κ]

/-- The datum a search for `key` ends at. -/
def find (compar : α → α → Int) (key : α) : SearchTree α → Option α
  | nil => none
  | node here left right =>
    if compar key here = 0 then some here
    else if compar key here < 0 then find compar key left
    else find compar key right

/-- Adds `key` as a leaf where a search for it ends, unless it ends at a datum. -/
def insert (compar : α → α → Int) (key : α) : SearchTree α → SearchTree α
  | nil => node key nil nil
  | node here left right =>
    if compar key here = 0 then node here left right
    else if compar key here < 0 then node here (insert compar key left) right
    else node here left (insert compar key right)

/-- Changes the datum a search for `key` ends at. -/
def modify (compar : α → α → Int) (key : α) (change : α → α) : SearchTree α → SearchTree α
  | nil => nil
  | node here left right =>
    if compar key here = 0 then node (change here) left right
    else if compar key here < 0 then node here (modify compar key change left) right
    else node here left (modify compar key change right)

/-- The comparison orders its arguments by `index`. -/
structure Compares (compar : α → α → Int) (index : α → κ) : Prop where
  zero_iff : ∀ a b, compar a b = 0 ↔ index a = index b
  neg_iff : ∀ a b, compar a b < 0 ↔ index a < index b

variable {compar : α → α → Int} {index : α → κ}

section
variable {k key here : κ} {a b c : Option α} {f : Option α → Option α}

/-- What changes for a key left of the node changes where a search goes to the left. -/
lemma ite_left (below : key < here) :
    (if k = here then a else if k < here then if k = key then f b else b else c) =
      if k = key then f (if k = here then a else if k < here then b else c)
      else if k = here then a else if k < here then b else c := by
  grind

lemma ite_right (above : here < key) :
    (if k = here then a else if k < here then b else if k = key then f c else c) =
      if k = key then f (if k = here then a else if k < here then b else c)
      else if k = here then a else if k < here then b else c := by
  grind

end

section
variable (compares : Compares compar index)
include compares

lemma find_congr (same : index a = index b) (tree : SearchTree α) :
    find compar a tree = find compar b tree := by
  induction tree with
  | nil => rfl
  | node here left right ihLeft ihRight =>
    simp [find, compares.zero_iff, compares.neg_iff, same, ihLeft, ihRight]

lemma find_insert (absent : find compar key tree = none) (k : α) :
    find compar k (insert compar key tree) =
      if index k = index key then some key else find compar k tree := by
  induction tree with
  | nil =>
    simp only [insert, find, compares.zero_iff]
    split
    · rfl
    · split <;> rfl
  | node here left right ihLeft ihRight =>
    simp only [find] at absent
    split at absent
    · cases absent
    · next differ =>
      rw [compares.zero_iff] at differ
      simp only [insert, compares.zero_iff, if_neg differ, compares.neg_iff] at absent ⊢
      split at absent
      · next below =>
        rw [if_pos below]
        simp only [find, compares.zero_iff, compares.neg_iff, ihLeft absent]
        exact ite_left (f := fun _ => some key) below
      · next above =>
        rw [if_neg above]
        simp only [find, compares.zero_iff, compares.neg_iff, ihRight absent]
        exact ite_right (f := fun _ => some key) (lt_of_le_of_ne (not_lt.mp above) (Ne.symm differ))

lemma find_modify (keeps : ∀ a, index (change a) = index a) (key k : α) (tree : SearchTree α) :
    find compar k (modify compar key change tree) =
      if index k = index key then (find compar k tree).map change else find compar k tree := by
  induction tree with
  | nil => simp [modify, find]
  | node here left right ihLeft ihRight =>
    rcases Decidable.em (index key = index here) with atKey | differ
    · simp only [modify, find, compares.zero_iff, compares.neg_iff, if_pos atKey, keeps]
      split
      · next hit => rw [if_pos (hit.trans atKey.symm), map_some]
      · next miss =>
        have other : index k ≠ index key := fun same => miss (same.trans atKey)
        rw [if_neg other]
    · by_cases below : index key < index here
      · simp only [modify, find, compares.zero_iff, compares.neg_iff, if_neg differ, if_pos below,
          ihLeft]
        exact ite_left below
      · simp only [modify, find, compares.zero_iff, compares.neg_iff, if_neg differ, if_neg below,
          ihRight]
        exact ite_right (lt_of_le_of_ne (not_lt.mp below) (Ne.symm differ))

end

end SearchTree

end Ndpi.Lib
