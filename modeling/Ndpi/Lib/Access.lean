import Ndpi.Lib.Memory

/-!
# Reads with a record of their addresses

A computation that reads a buffer, as its result together with the indices it
touched, in order. A read outside the buffer gives zeros; whether one happened
is a statement about the indices.
-/
namespace Ndpi.Lib
open List

structure Access (α : Type) where
  val : α
  reads : List Nat

namespace Access

variable {α β : Type}

instance : Monad Access where
  pure a := ⟨a, []⟩
  bind x f := ⟨(f x.val).val, x.reads ++ (f x.val).reads⟩

@[simp] lemma pure_val (a : α) : (pure a : Access α).val = a := rfl

@[simp] lemma pure_reads (a : α) : (pure a : Access α).reads = [] := rfl

variable (x : Access α)

@[simp] lemma bind_val (f : α → Access β) : (x >>= f).val = (f x.val).val := rfl

@[simp] lemma bind_reads (f : α → Access β) : (x >>= f).reads = x.reads ++ (f x.val).reads := rfl

/-- Every index read lies below `bound`. -/
def Inside (x : Access α) (bound : Nat) : Prop := ∀ index ∈ x.reads, index < bound

@[simp] lemma inside_pure : (pure a : Access α).Inside bound := by
  simp [Inside]

@[simp] lemma inside_bind (f : α → Access β) (bound : Nat) :
    (x >>= f).Inside bound ↔ x.Inside bound ∧ (f x.val).Inside bound := by
  simp [Inside, mem_append, or_imp, forall_and]

end Access

/-- `count` consecutive bytes from `offset` on. -/
def Memory.fetch (m : Memory) (offset count : Nat) : Access Bytes where
  val := (List.range count).map fun i => m.cells[offset + i]?.getD 0
  reads := (List.range count).map (offset + ·)

@[simp] lemma Memory.fetch_inside (m : Memory) (offset count bound : Nat) :
    (m.fetch offset count).Inside bound ↔ count = 0 ∨ offset + count ≤ bound := by
  simp only [Access.Inside, Memory.fetch, mem_map, mem_range, forall_exists_index,
    and_imp, forall_apply_eq_imp_iff₂]
  constructor
  · intro h
    by_cases zero : count = 0
    · exact .inl zero
    · have last := h (count - 1) (by omega)
      exact .inr (by omega)
  · rintro (rfl | h) i hi
    · omega
    · omega

/-- A fetch from the middle of known contents. -/
lemma Memory.fetch_val (m : Memory) (offset : Nat) (before bytes after : Bytes)
    (contents : m.cells = before ++ bytes ++ after) (position : before.length = offset) :
    (m.fetch offset bytes.length).val = bytes := by
  apply ext_getElem
  · simp [Memory.fetch]
  · intro i inside _
    simp only [Memory.fetch, length_map, length_range] at inside
    simp only [Memory.fetch, getElem_map, getElem_range, contents, append_assoc]
    rw [getElem?_append_right (by omega), getElem?_append_left (by omega),
      getElem?_eq_getElem (by omega), Option.getD_some]
    simp [position]

end Ndpi.Lib
