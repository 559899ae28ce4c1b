import Mathlib.Data.List.Infix

/-!
# Properties of whole runs

A run folds a step function over a list of inputs. What holds after every prefix
of the inputs is what its steps keep; when a step keeps a property exactly under
a condition on the state it starts from, the property holds throughout a run
exactly if every step of the run meets the condition.
-/
namespace Ndpi.Lib
open List

variable {σ ε : Type*} (step : σ → ε → σ)

def run (s : σ) (inputs : List ε) : σ := inputs.foldl step s

@[simp] lemma run_nil (s : σ) : run step s [] = s := rfl

lemma run_append (s : σ) (first second : List ε) :
    run step s (first ++ second) = run step (run step s first) second := foldl_append

lemma run_concat (s : σ) (inputs : List ε) (input : ε) :
    run step s (inputs ++ [input]) = step (run step s inputs) input :=
  run_append step s inputs [input]

/-- The run that only keeps its inputs. -/
lemma run_log (inputs : List ε) : run (fun log input => log ++ [input]) [] inputs = inputs := by
  induction inputs using List.reverseRecOn with
  | nil => rfl
  | append_singleton inputs input ih => rw [run_concat, ih]

/-- A subsequence of a log that has grown by one. -/
lemma concat_sublist_concat {found log : List ε} :
    found ++ [a] <+ log ++ [b] ↔ found ++ [a] <+ log ∨ (found <+ log ∧ b = a) := by
  rw [← reverse_sublist, reverse_append, reverse_append, reverse_singleton, reverse_singleton,
    singleton_append, singleton_append, cons_sublist_cons', ← reverse_concat, reverse_sublist,
    reverse_sublist, and_comm, eq_comm]

/-- After every prefix of the inputs the property holds. -/
def Throughout (holds : σ → Prop) (s : σ) (inputs : List ε) : Prop :=
  ∀ before, before <+: inputs → holds (run step s before)

/-- Every input of the run meets the condition in the state it is applied to. -/
def EveryStep (good : σ → ε → Prop) (s : σ) (inputs : List ε) : Prop :=
  ∀ before input, before ++ [input] <+: inputs → good (run step s before) input

variable {step} {good : σ → ε → Prop} {s : σ}

lemma everyStep_nil : EveryStep step good s [] := by
  intro before input within
  cases before <;> cases eq_nil_of_prefix_nil within

variable {inputs : List ε}

lemma everyStep_cons :
    EveryStep step good s (input :: inputs) ↔
      good s input ∧ EveryStep step good (step s input) inputs := by
  constructor
  · intro steps
    refine ⟨steps [] input ?_, fun before later within => steps (input :: before) later ?_⟩
    · exact prefix_iff_eq_append.mpr rfl
    · exact cons_prefix_cons.mpr ⟨rfl, within⟩
  · intro both before later within
    obtain ⟨first, rest⟩ := both
    cases before with
    | nil =>
      rw [nil_append, cons_prefix_cons] at within
      exact within.1 ▸ first
    | cons head before =>
      rw [cons_append, cons_prefix_cons] at within
      exact within.1 ▸ rest before later within.2

/-- The invariant rule: what every good step keeps holds after every prefix. -/
lemma throughout_of_everyStep (start : invariant s)
    (keeps : ∀ s input, invariant s → good s input → invariant (step s input))
    (steps : EveryStep step good s inputs) : Throughout step invariant s inputs := by
  intro before
  induction before using List.reverseRecOn with
  | nil =>
    intro _
    exact start
  | append_singleton before input ih =>
    intro within
    rw [run_concat]
    exact keeps _ _ (ih ((prefix_append before [input]).trans within)) (steps _ _ within)

/-- Where every step keeps `always`, and keeps `holds` exactly under the
condition, `holds` is true throughout a run exactly if every step meets it. -/
lemma throughout_iff_everyStep {always holds : σ → Prop} (start : always s ∧ holds s)
    (keeps : ∀ s input, always s → always (step s input))
    (exactly : ∀ s input, always s → holds s → (holds (step s input) ↔ good s input)) :
    Throughout step holds s inputs ↔ EveryStep step good s inputs := by
  constructor
  · intro throughout before input within
    have reached : always (run step s before) := by
      clear within
      induction before using List.reverseRecOn with
      | nil => exact start.1
      | append_singleton before input ih =>
        rw [run_concat]
        exact keeps _ _ ih
    have here := throughout before ((prefix_append before [input]).trans within)
    have next := throughout (before ++ [input]) within
    rw [run_concat] at next
    exact (exactly _ input reached here).mp next
  · intro steps
    have joint : Throughout step (fun s => always s ∧ holds s) s inputs := by
      refine throughout_of_everyStep start ?_ steps
      rintro s input ⟨here, held⟩ good
      exact ⟨keeps s input here, (exactly s input here held).mpr good⟩
    intro before within
    exact (joint before within).2

end Ndpi.Lib
