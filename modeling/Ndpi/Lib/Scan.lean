import Ndpi.Lib.Access
import Ndpi.Lib.Loop

/-!
# Scans of a buffer that may run out of fuel

A computation that reads a buffer as its result, if it came to one, with the indices
it touched. `Yields` is total correctness: the scan ends, has read only below a
bound, and its result satisfies a postcondition. There is one rule for each way a
scan is built.
-/
namespace Ndpi.Lib

structure Scan (α : Type) where
  val : Option α
  reads : List Nat
  deriving DecidableEq

namespace Scan

variable {α β : Type}

/-- The scan goes on with `f` if the first part came to a result. -/
def andThen (x : Scan α) (f : α → Scan β) : Scan β :=
  match x.val with
  | none => ⟨none, x.reads⟩
  | some a => ⟨(f a).val, x.reads ++ (f a).reads⟩

instance : Monad Scan where
  pure a := ⟨some a, []⟩
  bind := andThen

@[simp] lemma pure_val (a : α) : (pure a : Scan α).val = some a := rfl

@[simp] lemma bind_val (x : Scan α) (f : α → Scan β) :
    (x >>= f).val = x.val.bind fun a => (f a).val := by
  change (x.andThen f).val = _
  unfold andThen
  cases x.val <;> rfl

/-- The fuel has run out. -/
def stuck : Scan α := ⟨none, []⟩

def ofAccess (x : Access α) : Scan α := ⟨some x.val, x.reads⟩

/-- The scan ends with a result of this kind, and reads only below `bound`. -/
def Yields (x : Scan α) (bound : Nat) (post : α → Prop) : Prop :=
  (∀ index ∈ x.reads, index < bound) ∧ ∃ a, x.val = some a ∧ post a

variable {bound : Nat} {post : α → Prop}

lemma yields_pure (holds : post a) : (pure a : Scan α).Yields bound post := by
  refine ⟨?_, a, rfl, holds⟩
  intro index read
  cases read

variable {x : Scan α}

lemma yields_bind {post : β → Prop}
    (first : x.Yields bound middle) (rest : ∀ a, middle a → (f a).Yields bound post) :
    (x >>= f).Yields bound post := by
  obtain ⟨inside, a, result, holds⟩ := first
  obtain ⟨later, b, final, holds'⟩ := rest a holds
  have joined : x >>= f = ⟨(f a).val, x.reads ++ (f a).reads⟩ := by
    change x.andThen f = _
    rw [andThen, result]
  rw [joined]
  refine ⟨fun index read => ?_, b, final, holds'⟩
  exact (List.mem_append.mp read).elim (inside index) (later index)

/-- The scan ends and reads below the bound only, whatever its result is. -/
abbrev Safe (x : Scan α) (bound : Nat) : Prop := x.Yields bound fun _ => True

lemma safe_pure : (pure a : Scan α).Safe bound := yields_pure trivial

lemma safe_map {f : α → β} (first : x.Yields bound post) :
    (x >>= fun a => pure (f a)).Safe bound :=
  yields_bind first fun _ _ => safe_pure

lemma Yields.weaken (yields : x.Yields bound post) (follows : ∀ a, post a → weaker a) :
    x.Yields bound weaker := by
  obtain ⟨inside, a, result, holds⟩ := yields
  exact ⟨inside, a, result, follows a holds⟩

/-- The scan has one result. -/
lemma Yields.exactly (yields : x.Yields bound post) (result : x.val = some a) :
    post a ∧ x.Yields bound (· = a) := by
  obtain ⟨inside, b, result', holds⟩ := yields
  obtain rfl := Option.some.inj (result.symm.trans result')
  exact ⟨holds, inside, a, result, rfl⟩

lemma yields_ofAccess {x : Access α} (inside : x.Inside bound) (holds : post x.val) :
    (ofAccess x).Yields bound post := ⟨inside, x.val, rfl, holds⟩

lemma yields_fetch {m : Memory} {count : Nat} (inside : count = 0 ∨ offset + count ≤ bound) :
    (ofAccess (m.fetch offset count)).Yields bound (· = (m.fetch offset count).val) :=
  yields_ofAccess ((m.fetch_inside offset count bound).mpr inside) rfl

/-- A loop of at most so many turns. -/
def turns {σ ρ : Type} (turn : σ → Scan (Turn σ ρ)) (done : σ → ρ) : Nat → σ → Scan ρ
  | 0, s => pure (done s)
  | count + 1, s => do
    let came ← turn s
    match came with
    | .stay t => turns turn done count t
    | .leave r => pure r

/-- The rule for such a loop: an invariant that the turns keep until they leave. -/
lemma yields_turns {post : ρ → Prop} (holds : σ → Prop) (finish : ∀ s, holds s → post (done s))
    (keeps : ∀ s, holds s → (turn s).Yields bound fun came =>
      (∀ t, came = .stay t → holds t) ∧ ∀ r, came = .leave r → post r) (count : Nat)
    (start : holds s) : (turns turn done count s).Yields bound post := by
  induction count generalizing s with
  | zero => exact yields_pure (finish s start)
  | succ count ih =>
    apply yields_bind (keeps s start)
    intro came both
    cases came with
    | stay t => exact ih (both.1 t rfl)
    | leave r => exact yields_pure (both.2 r rfl)

/-- A loop that runs until a turn leaves it. -/
def untilLeave {σ ρ : Type} (turn : σ → Scan (Turn σ ρ)) : Nat → σ → Scan ρ
  | 0, _ => stuck
  | fuel + 1, s => do
    let came ← turn s
    match came with
    | .stay t => untilLeave turn fuel t
    | .leave r => pure r

/-- The rule for such a loop: the turns that stay keep an invariant and go down in a
measure. -/
lemma yields_untilLeave {σ ρ : Type} {turn : σ → Scan (Turn σ ρ)} {post : ρ → Prop}
    {holds : σ → Prop} {measure : σ → Nat} (keeps : ∀ s, holds s → (turn s).Yields bound fun came =>
      (∀ t, came = .stay t → holds t ∧ measure t < measure s) ∧ ∀ r, came = .leave r → post r)
    {fuel : Nat} {s : σ} (enough : measure s < fuel) (start : holds s) :
    (untilLeave turn fuel s).Yields bound post := by
  induction fuel generalizing s with
  | zero => omega
  | succ fuel ih =>
    apply yields_bind (keeps s start)
    intro came both
    cases came with
    | stay t =>
      obtain ⟨kept, less⟩ := both.1 t rfl
      exact ih (by omega) kept
    | leave r => exact yields_pure (both.2 r rfl)

section

variable (bytes : Bytes)

/-- One byte; outside of the buffer it is zero. -/
def byte (offset : Nat) : Scan UInt8 := ⟨some (bytes[offset]?.getD 0), [offset]⟩

/-- A big-endian number of two bytes. -/
def be16 (offset : Nat) : Scan Nat := do
  let high ← byte bytes offset
  let low ← byte bytes (offset + 1)
  pure (high.toNat * 256 + low.toNat)

/-- A big-endian number of three bytes. -/
def be24 (offset : Nat) : Scan Nat := do
  let high ← byte bytes offset
  let low ← be16 bytes (offset + 1)
  pure (high.toNat * 65536 + low)

/-- A big-endian number of four bytes. -/
def be32 (offset : Nat) : Scan Nat := do
  let high ← be16 bytes offset
  let low ← be16 bytes (offset + 2)
  pure (high * 65536 + low)

variable {bytes} {offset : Nat}

@[simp] lemma byte_val : (byte bytes offset).val = some (bytes[offset]?.getD 0) := rfl

lemma yields_byte (inside : offset < bound) :
    (byte bytes offset).Yields bound (· = bytes[offset]?.getD 0) := by
  refine ⟨?_, _, rfl, rfl⟩
  intro index read
  obtain rfl := List.mem_singleton.mp read
  exact inside

lemma yields_be16 (inside : offset + 2 ≤ bound) :
    (be16 bytes offset).Yields bound (· < 65536) := by
  refine yields_bind (yields_byte (by omega)) fun high _ => ?_
  refine yields_bind (yields_byte (by omega)) fun low _ => ?_
  have first := high.toNat_lt
  have second := low.toNat_lt
  exact yields_pure (by omega)

lemma yields_be24 (inside : offset + 3 ≤ bound) :
    (be24 bytes offset).Yields bound (· < 16777216) := by
  refine yields_bind (yields_byte (by omega)) fun high _ => ?_
  refine yields_bind (yields_be16 (by omega)) fun low small => ?_
  have first := high.toNat_lt
  exact yields_pure (by omega)

lemma yields_be32 (inside : offset + 4 ≤ bound) :
    (be32 bytes offset).Yields bound (· < 4294967296) := by
  refine yields_bind (yields_be16 (by omega)) fun high large => ?_
  refine yields_bind (yields_be16 (by omega)) fun low small => ?_
  exact yields_pure (by omega)

end

end Scan

end Ndpi.Lib
