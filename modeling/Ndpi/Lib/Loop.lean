import Mathlib.Order.WellFounded

/-!
# Loops

A loop as the function that runs one iteration: it either stays in the loop with a
new state or leaves it with a result. The fuelled run executes it; that a loop
ends is that some fuel suffices. A loop that decreases along a well-founded
relation ends, and one that is caught in a set of states does not.
-/
namespace Ndpi.Lib

/-- What an iteration comes to. -/
inductive Turn (σ ρ : Type*) where
  | stay (next : σ)
  | leave (result : ρ)

variable {σ ρ : Type*} (body : σ → Turn σ ρ)

def loop : Nat → σ → Option ρ
  | 0, _ => none
  | fuel + 1, s =>
    match body s with
    | .stay t => loop fuel t
    | .leave r => some r

/-- The states in which an iteration begins. -/
inductive Visits (start : σ) : σ → Prop
  | start : Visits start start
  | next {s t : σ} : Visits start s → body s = .stay t → Visits start t

def Ends (s : σ) (r : ρ) : Prop := ∃ fuel, loop body fuel s = some r

def Terminates (s : σ) : Prop := ∃ r, Ends body s r

variable {body} {s : σ}

lemma loop_mono (enough : fuel ≤ more) (ended : loop body fuel s = some r) :
    loop body more s = some r := by
  induction fuel generalizing more s with
  | zero => cases ended
  | succ fuel ih =>
    obtain ⟨more, rfl⟩ : ∃ m, more = m + 1 := ⟨more - 1, by omega⟩
    rw [loop] at ended ⊢
    cases turn : body s with
    | leave result =>
      rw [turn] at ended
      exact ended
    | stay t =>
      rw [turn] at ended
      exact ih (by omega) ended

lemma ends_of_leave (leaves : body s = .leave r) : Ends body s r :=
  ⟨1, by rw [loop, leaves]⟩

lemma ends_iff_of_stay {s : σ} (stays : body s = .stay t) (r : ρ) :
    Ends body s r ↔ Ends body t r := by
  constructor
  · rintro ⟨fuel, ended⟩
    cases fuel with
    | zero => cases ended
    | succ fuel =>
      rw [loop, stays] at ended
      exact ⟨fuel, ended⟩
  · rintro ⟨fuel, ended⟩
    refine ⟨fuel + 1, ?_⟩
    rw [loop, stays]
    exact ended

/-- With more fuel than a measure that goes down, the run comes to the result. -/
lemma loop_of_ends (measure : σ → Nat)
    (decreases : ∀ s t, body s = .stay t → measure t < measure s)
    (enough : measure s < fuel) (ended : Ends body s r) : loop body fuel s = some r := by
  induction fuel generalizing s with
  | zero => omega
  | succ fuel ih =>
    rw [loop]
    cases turn : body s with
    | leave result =>
      obtain ⟨some, came⟩ := ended
      cases some with
      | zero => cases came
      | succ some =>
        rw [loop, turn] at came
        exact came
    | stay t =>
      have less := decreases s t turn
      exact ih (by omega) ((ends_iff_of_stay turn r).mp ended)

lemma Visits.ends_iff {s : σ} (visits : Visits body s t) (r : ρ) :
    Ends body s r ↔ Ends body t r := by
  induction visits with
  | start => exact Iff.rfl
  | next _ stays ih => exact ih.trans (ends_iff_of_stay stays r)

lemma Visits.terminates_iff {s : σ} (visits : Visits body s t) :
    Terminates body s ↔ Terminates body t := exists_congr visits.ends_iff

/-- What every iteration keeps holds wherever one begins. -/
lemma Visits.invariant {s t : σ} {holds : σ → Prop} (visits : Visits body s t)
    (start : holds s) (keeps : ∀ u v, holds u → body u = .stay v → holds v) : holds t := by
  induction visits with
  | start => exact start
  | next _ stays ih => exact keeps _ _ ih stays

/-- A loop in which every iteration that stays goes down ends. -/
lemma terminates_of_decreasing (wellFounded : WellFounded below)
    (decreases : ∀ t u, Visits body s t → body t = .stay u → below u t) : Terminates body s := by
  have fromHere : ∀ t, Visits body s t → Terminates body t := by
    intro t
    induction t using wellFounded.induction with
    | _ t ih =>
      intro visits
      cases turn : body t with
      | leave r => exact ⟨r, ends_of_leave turn⟩
      | stay u =>
        obtain ⟨r, ended⟩ := ih u (decreases t u visits turn) (visits.next turn)
        exact ⟨r, (ends_iff_of_stay turn r).mpr ended⟩
  exact fromHere s .start

/-- A loop that stays within a set of states does not end. -/
lemma not_terminates_of_trapped {trap : σ → Prop} (trapped : trap s)
    (stays : ∀ t, trap t → ∃ u, body t = .stay u ∧ trap u) : ¬Terminates body s := by
  rintro ⟨r, fuel, ended⟩
  induction fuel generalizing s with
  | zero => cases ended
  | succ fuel ih =>
    obtain ⟨u, turn, again⟩ := stays s trapped
    rw [loop, turn] at ended
    exact ih again ended

end Ndpi.Lib
