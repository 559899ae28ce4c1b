import Mathlib.Data.List.Basic

/-!
# Maps with longest-prefix lookup

A map from prefixes to values, where a prefix is the list of its leading bits, and
the value of the longest prefix of a query. This is what a patricia tree computes.
-/
namespace Ndpi.Lib
open List Option

def PrefixMap (α : Type) := List Bool → Option α

namespace PrefixMap
variable {α : Type}

def empty : PrefixMap α := fun _ => none

/-- The entry of `key` is changed, or made from nothing. -/
def alter (m : PrefixMap α) (key : List Bool) (change : Option α → α) : PrefixMap α :=
  fun other => if other = key then some (change (m key)) else m other

/-- The longest prefix of at most `len` bits. -/
def bestUpTo (m : PrefixMap α) (query : List Bool) : Nat → Option α
  | 0 => m []
  | len + 1 => (m (query.take (len + 1))).or (bestUpTo m query len)

def best (m : PrefixMap α) (query : List Bool) : Option α := m.bestUpTo query query.length

variable (m : PrefixMap α)

@[simp] lemma alter_self (key : List Bool) (change : Option α → α) :
    m.alter key change key = some (change (m key)) := if_pos rfl

lemma alter_of_ne (change : Option α → α) (differ : other ≠ key) :
    m.alter key change other = m other := if_neg differ

/-- The entry of a prefix that no longer one of the query comes before. -/
lemma bestUpTo_of_longest {m : PrefixMap α} {query : List Bool} {count : Nat} {len : Nat}
    (longest : ∀ k, len < k → k ≤ len + count → m (query.take k) = none)
    (found : m (query.take len) ≠ none) :
    m.bestUpTo query (len + count) = m (query.take len) := by
  induction count with
  | zero =>
    cases len with
    | zero => rfl
    | succ len =>
      obtain ⟨value, some⟩ := ne_none_iff_exists'.mp found
      show (m (query.take (len + 1))).or _ = _
      rw [some]
      rfl
  | succ count ih =>
    show (m (query.take (len + count + 1))).or _ = _
    rw [longest (len + count + 1) (by omega) (Nat.le_refl _), none_or]
    exact ih fun k above below => longest k above (by omega)

lemma best_of_longest {m : PrefixMap α} {key query : List Bool} (within : key <+: query)
    (found : m key ≠ none)
    (longest : ∀ other, key.length < other.length → other <+: query → m other = none) :
    m.best query = m key := by
  have short := within.length_le
  have same : query.take key.length = key := (prefix_iff_eq_take.mp within).symm
  obtain ⟨count, total⟩ := Nat.exists_eq_add_of_le short
  rw [best, total, bestUpTo_of_longest _ (same.symm ▸ found), same]
  intro k above below
  apply longest (query.take k) _ (List.take_prefix _ _)
  rw [length_take]
  omega

lemma bestUpTo_map (f : α → β) :
    bestUpTo (fun key => (m key).map f) query len = (m.bestUpTo query len).map f := by
  induction len with
  | zero => rfl
  | succ len ih =>
    show ((m (query.take (len + 1))).map f).or (bestUpTo _ query len) =
      ((m (query.take (len + 1))).or (m.bestUpTo query len)).map f
    rw [ih]
    cases m (query.take (len + 1)) <;> rfl

lemma best_map (f : α → β) (query : List Bool) :
    best (fun key => (m key).map f) query = (m.best query).map f := bestUpTo_map m f

end PrefixMap
end Ndpi.Lib
