import Mathlib.Order.Basic

/-!
# Pairs without a direction

Two ends put in order by a strict comparison. The result does not depend on which
end is named first, and says what the ends are up to their order.
-/
namespace Ndpi.Lib

variable {α : Type*} {less : α → α → Bool}

/-- The two ends, the lesser one first. -/
def inOrder (less : α → α → Bool) (a b : α) : α × α := if less a b then (a, b) else (b, a)

/-- The comparison tells different ends apart, in one direction only. -/
structure Separates (less : α → α → Bool) : Prop where
  asymm : ∀ {a b}, less a b = true → less b a = false
  connex : ∀ {a b}, less a b = false → less b a = false → a = b

lemma inOrder_comm (separates : Separates less) (a b : α) :
    inOrder less b a = inOrder less a b := by
  unfold inOrder
  cases forward : less a b with
  | true => rw [separates.asymm forward]; rfl
  | false =>
    cases backward : less b a with
    | true => rfl
    | false => rw [separates.connex forward backward]

lemma inOrder_eq_or (less : α → α → Bool) (a b : α) :
    inOrder less a b = (a, b) ∨ inOrder less a b = (b, a) := by
  unfold inOrder
  split
  · exact .inl rfl
  · exact .inr rfl

lemma inOrder_both (less : α → α → Bool) {holds : α → Prop} {a b : α} (first : holds a)
    (second : holds b) :
    holds (inOrder less a b).1 ∧ holds (inOrder less a b).2 := by
  rcases inOrder_eq_or less a b with order | order <;> rw [order]
  · exact ⟨first, second⟩
  · exact ⟨second, first⟩

lemma ends_of_inOrder_eq (same : inOrder less a b = inOrder less c d) :
    (a = c ∧ b = d) ∨ (a = d ∧ b = c) := by
  rcases inOrder_eq_or less a b with first | first <;>
    rcases inOrder_eq_or less c d with second | second <;>
    rw [first, second, Prod.mk.injEq] at same
  · exact .inl same
  · exact .inr same
  · exact .inr ⟨same.2, same.1⟩
  · exact .inl ⟨same.2, same.1⟩

end Ndpi.Lib
