import Mathlib.Data.List.Pairwise

/-!
# One entry for each key

The entries of a list whose key differs from that of the entry kept before. On a
list in the order of its keys they have strictly increasing keys, and no key is lost.
-/
namespace Ndpi.Lib
open List

variable {α κ : Type*} [DecidableEq κ] (key : α → κ)

/-- The entries kept behind one with the key `last`. -/
def keepNew (last : κ) : List α → List α
  | [] => []
  | e :: rest => if key e ≠ last then e :: keepNew (key e) rest else keepNew last rest

variable {key}

lemma keepNew_sublist (last : κ) (entries : List α) :
    (keepNew key last entries).Sublist entries := by
  induction entries generalizing last with
  | nil => exact .slnil
  | cons e rest ih =>
    unfold keepNew
    split
    · exact (ih (key e)).cons_cons e
    · exact (ih last).cons e

/-- Every key is that of the entry before or of an entry kept. -/
lemma key_kept (last : κ) (mem : e ∈ entries) :
    key e = last ∨ ∃ kept ∈ keepNew key last entries, key kept = key e := by
  induction entries generalizing last with
  | nil => cases mem
  | cons d rest ih =>
    unfold keepNew
    split
    · next fresh =>
      right
      rcases mem_cons.mp mem with rfl | later
      · exact ⟨e, mem_cons_self, rfl⟩
      · rcases ih (key d) later with same | ⟨kept, inside, same⟩
        · exact ⟨d, mem_cons_self, same.symm⟩
        · exact ⟨kept, mem_cons_of_mem d inside, same⟩
    · next known =>
      rcases mem_cons.mp mem with rfl | later
      · exact .inl (not_not.mp known)
      · exact ih last later

/-- In the order of the keys, those kept increase strictly. -/
lemma keepNew_increasing {le lt : κ → κ → Prop} (strict : ∀ {j k}, le j k → j ≠ k → lt j k)
    (trans : ∀ {i j k}, lt i j → lt j k → lt i k) {last : κ} {entries : List α}
    (above : ∀ e ∈ entries, le last (key e))
    (sorted : entries.Pairwise fun a b => le (key a) (key b)) :
    (∀ e ∈ keepNew key last entries, lt last (key e)) ∧
      (keepNew key last entries).Pairwise fun a b => lt (key a) (key b) := by
  induction entries generalizing last with
  | nil => exact ⟨fun e mem => (not_mem_nil mem).elim, .nil⟩
  | cons d rest ih =>
    obtain ⟨first, others⟩ := pairwise_cons.mp sorted
    unfold keepNew
    split
    · next fresh =>
      obtain ⟨beyond, increasing⟩ := ih first others
      have more : lt last (key d) := strict (above d mem_cons_self) (Ne.symm fresh)
      refine ⟨fun e mem => ?_, increasing.cons beyond⟩
      rcases mem_cons.mp mem with rfl | later
      · exact more
      · exact trans more (beyond e later)
    · exact ih (fun e mem => above e (mem_cons_of_mem d mem)) others

end Ndpi.Lib
