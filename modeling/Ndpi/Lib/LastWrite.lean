import Mathlib.Data.List.Basic

/-!
# The last write in a log

What a cell holds after a sequence of operations, when each of them either
overwrites it or leaves it alone: the effect of the last one that overwrites.
Logs have their oldest entry first.
-/
namespace Ndpi.Lib
open List

variable {α β : Type*}

def lastWrite (effect : α → Option β) (log : List α) : Option β := log.reverse.findSome? effect

variable (effect : α → Option β)

@[simp] lemma lastWrite_nil : lastWrite effect [] = none := rfl

lemma lastWrite_concat (log : List α) (e : α) :
    lastWrite effect (log ++ [e]) = (effect e).or (lastWrite effect log) := by
  rw [lastWrite, reverse_append, reverse_singleton, singleton_append, findSome?_cons]
  cases effect e <;> rfl

/-- Nothing after the last write touches the cell. -/
lemma lastWrite_eq_some_iff {effect : α → Option β} :
    lastWrite effect log = some b ↔ ∃ before e after, log = before ++ e :: after ∧
      effect e = some b ∧ ∀ later ∈ after, effect later = none := by
  rw [lastWrite, findSome?_eq_some_iff]
  constructor
  · rintro ⟨after, e, before, reversed, writes, leaves⟩
    refine ⟨before.reverse, e, after.reverse, ?_, writes, ?_⟩
    · rw [← reverse_reverse log, reversed]
      simp
    · intro later member
      exact leaves later (mem_reverse.mp member)
  · rintro ⟨before, e, after, rfl, writes, leaves⟩
    refine ⟨after.reverse, e, before.reverse, ?_, writes, ?_⟩
    · simp
    · intro later member
      exact leaves later (mem_reverse.mp member)

end Ndpi.Lib
