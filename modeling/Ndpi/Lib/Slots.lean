import Mathlib.Data.List.Basic

/-!
# Tables with free places

A table of fixed size, some of whose places are free. A new entry goes to the first
free place; without one it is lost. An entry may itself look like a free place.
-/
namespace Ndpi.Lib
open List

variable {α : Type} (free : α → Bool)

/-- An entry is put in the first free place. -/
def fill : List α → α → List α
  | [], _ => []
  | slot :: rest, entry => if free slot then entry :: rest else slot :: fill rest entry

lemma fill_full (full : table.countP free = 0) (entry : α) : fill free table entry = table := by
  induction table with
  | nil => rfl
  | cons slot rest ih =>
    rw [countP_cons] at full
    have used : ¬ free slot = true := by
      intro is
      rw [if_pos is] at full
      omega
    rw [fill, if_neg used, ih (by omega)]

/-- The place that is filled. -/
lemma fill_eq_set (table : List α) (entry : α) :
    fill free table entry = table.set (table.findIdx free) entry := by
  induction table with
  | nil => rfl
  | cons slot rest ih =>
    rw [fill, findIdx_cons]
    cases is : free slot with
    | true => rfl
    | false => exact congrArg (slot :: ·) ih

/-- The entries in use after one more. -/
lemma mem_fill (room : 0 < table.countP free) (entry y : α) (used : free y = false) :
    y ∈ fill free table entry ↔ y ∈ table ∨ y = entry := by
  induction table with
  | nil => exact absurd room (Nat.lt_irrefl _)
  | cons slot rest ih =>
    rw [fill]
    by_cases is : free slot = true
    · have other : y ≠ slot := by
        rintro rfl
        rw [is] at used
        cases used
      rw [if_pos is, mem_cons, mem_cons]
      tauto
    · rw [countP_cons, if_neg is] at room
      rw [if_neg is, mem_cons, mem_cons, ih room]
      tauto

/-- The free places after one more. -/
lemma countP_fill (entry : α) :
    (fill free table entry).countP free =
      if free entry then table.countP free else table.countP free - 1 := by
  induction table with
  | nil => simp [fill]
  | cons slot rest ih =>
    rw [fill]
    split
    · next is =>
      rw [countP_cons, countP_cons, if_pos is]
      split <;> omega
    · next is =>
      rw [countP_cons, countP_cons, if_neg is, ih]
      split <;> omega

/-- Of several entries, those that are not free themselves are kept until the places are
used up. -/
lemma mem_foldl_fill (table entries : List α) (used : free y = false) :
    y ∈ entries.foldl (fill free) table ↔
      y ∈ table ∨ y ∈ (entries.filter (!free ·)).take (table.countP free) := by
  induction entries generalizing table with
  | nil => simp
  | cons entry rest ih =>
    rw [foldl_cons, ih, countP_fill]
    by_cases room : 0 < table.countP free
    · rw [mem_fill free room entry y used]
      by_cases is : free entry = true
      · have other : y ≠ entry := by
          rintro rfl
          rw [is] at used
          cases used
        rw [if_pos is, filter_cons_of_neg (by simp [is])]
        tauto
      · obtain ⟨k, count⟩ := Nat.exists_eq_succ_of_ne_zero (Nat.pos_iff_ne_zero.mp room)
        rw [if_neg is, filter_cons_of_pos (by simpa using is), count, take_succ_cons,
          mem_cons, Nat.succ_sub_one]
        tauto
    · have full : table.countP free = 0 := Nat.eq_zero_of_not_pos room
      rw [fill_full free full, full]
      simp

end Ndpi.Lib
