import Ndpi.Source.Analyze

/-!
# The analysis of a series

The maximum is that of all values added. For the minimum the zeros before the first other value
are forgotten, and without a window the jitter is the sum of all values but the first.
-/
namespace Ndpi.Guarantees.Analyze
open Source.Analyze List

/-- The sum of the differences of consecutive values. -/
def jitter : List UInt64 → Nat
  | a :: b :: rest => (distance a b).toNat + jitter (b :: rest)
  | _ => 0

def total (values : List UInt64) : Nat := values.foldl (fun sum v => sum + v.toNat) 0

/-- The values that count for the extremes: those from the first on that is not zero. -/
def compared : List UInt64 → List UInt64
  | [] => [0]
  | v :: rest => if v = 0 then compared rest else v :: rest

/-- The differences that are added up with a window of this length. -/
def differences (window : Nat) (values : List UInt64) : Nat :=
  if window = 0 then total values.tail else jitter values

/-- A structure before its first value. -/
inductive Fresh : AnalyzeStruct → Prop
  | init (maxSeriesLen : Nat) : Fresh (initDataAnalysis maxSeriesLen)
  | reset (d : AnalyzeStruct) : Fresh (resetDataAnalysis d)

lemma Fresh.eq_zeroed (fresh : Fresh s) : s = zeroed s.values.length := by
  cases fresh <;> simp [initDataAnalysis, resetDataAnalysis, zeroed]

lemma total_concat (values : List UInt64) (v : UInt64) :
    total (values ++ [v]) = total values + v.toNat := by
  simp [total]

lemma total_le (first : UInt64) (rest : List UInt64) : total rest ≤ total (first :: rest) := by
  induction rest using reverseRecOn with
  | nil => exact Nat.zero_le _
  | append_singleton rest v ih =>
    rw [← cons_append, total_concat, total_concat]
    omega

lemma total_eq_zero_iff (values : List UInt64) : total values = 0 ↔ ∀ v ∈ values, v = 0 := by
  induction values using reverseRecOn with
  | nil => simp [total]
  | append_singleton values v ih =>
    rw [total_concat, Nat.add_eq_zero_iff, ih, forall_mem_append, forall_mem_singleton,
      ← UInt64.toNat_zero, UInt64.toNat_inj]

lemma jitter_concat (recent : seen.getLast? = some last) :
    jitter (seen ++ [value]) = jitter seen + (distance last value).toNat := by
  induction seen with
  | nil => cases recent
  | cons first rest ih =>
    cases rest with
    | nil => simp_all [jitter]
    | cons second rest =>
      rw [cons_append, cons_append, jitter, ← cons_append, ih (by simpa using recent), jitter]
      omega

variable {s : AnalyzeStruct} {value : UInt64} {seen : List UInt64}

lemma compared_zeros (zeros : ∀ v ∈ seen, v = 0) : compared (seen ++ [value]) = [value] := by
  induction seen with
  | nil => grind [compared]
  | cons v rest ih =>
    obtain ⟨rfl, later⟩ := forall_mem_cons.mp zeros
    exact ih later

lemma compared_concat (other : ¬∀ v ∈ seen, v = 0) :
    compared (seen ++ [value]) = compared seen ++ [value] := by
  induction seen with
  | nil => exact absurd (by simp) other
  | cons v rest ih => grind [compared]

lemma mem_compared (member : v ∈ compared values) (some : values ≠ []) : v ∈ values := by
  induction values with
  | nil => exact absurd rfl some
  | cons first rest ih => cases rest <;> grind [compared]

lemma compared_or_zero (member : v ∈ values) : v = 0 ∨ v ∈ compared values := by
  induction values with
  | nil => cases member
  | cons first rest ih => grind [compared]

/-- The value that was put into the window last. -/
def newest (s : AnalyzeStruct) : UInt64 :=
  if s.nextValueInsertIndex = 0 then s.values[s.values.length - 1]?.getD 0
  else s.values[s.nextValueInsertIndex - 1]?.getD 0

/-- The structure with a window of this length after these values. -/
structure Holds (window : Nat) (seen : List UInt64) (s : AnalyzeStruct) : Prop where
  length : s.values.length = window
  inside : window ≠ 0 → s.nextValueInsertIndex < window
  recent : window ≠ 0 → seen.getLast? = some (newest s)
  entries : s.numDataEntries = UInt32.ofNat seen.length
  sum : s.sumTotal.toNat = total seen
  least : s.minVal ∈ compared seen ∧ ∀ v ∈ compared seen, s.minVal ≤ v
  greatest : s.maxVal ∈ compared seen ∧ ∀ v ∈ compared seen, v ≤ s.maxVal
  jitter : s.jitterTotal = UInt64.ofNat (differences window seen)

lemma newest_addValue (inside : s.nextValueInsertIndex < s.values.length) :
    newest (dataAddValue s value) = value := by
  grind [newest, dataAddValue]

lemma dataLast_eq (begun : s.numDataEntries ≠ 0) :
    dataLast s = if s.values.length = 0 then 0 else newest s := by
  grind [dataLast, newest]

lemma distance_zero (value : UInt64) : distance 0 value = value := by
  simp [distance]

/-- One more value: what is added to the jitter. -/
lemma differences_concat (begun : seen ≠ [])
    (recent : window ≠ 0 → seen.getLast? = some last) :
    differences window (seen ++ [value]) =
      differences window seen + (distance (if window = 0 then 0 else last) value).toNat := by
  unfold differences
  split
  · rw [tail_append_of_ne_nil begun, total_concat, distance_zero]
  · next window => rw [jitter_concat (recent window)]

lemma holds_addValue (holds : Holds window seen s) (begun : seen ≠ [])
    (few : seen.length < UInt32.size) (bounded : total seen + value.toNat < UInt64.size) :
    Holds window (seen ++ [value]) (dataAddValue s value) := by
  obtain ⟨rfl, inside, recent, entries, sum, least, greatest, jitter⟩ := holds
  have counted : s.numDataEntries ≠ 0 := by
    intro zero
    rw [entries, UInt32.ofNat_eq_iff_mod_eq_toNat, Nat.mod_eq_of_lt few] at zero
    exact begun (length_eq_zero_iff.mp zero)
  have zero : s.sumTotal = 0 ↔ ∀ v ∈ seen, v = 0 := by
    rw [← total_eq_zero_iff, ← sum, ← UInt64.toNat_zero, UInt64.toNat_inj]
  constructor
  case length => simp [dataAddValue]
  case inside => grind [dataAddValue]
  case recent =>
    intro some
    rw [getLast?_concat, newest_addValue (inside some)]
  case entries => simp [dataAddValue, entries, UInt32.ofNat_add]
  case sum =>
    rw [total_concat, ← sum, dataAddValue, UInt64.toNat_add, sum, Nat.mod_eq_of_lt bounded]
  case jitter =>
    rw [differences_concat begun recent, UInt64.ofNat_add, ← jitter, UInt64.ofNat_toNat,
      dataAddValue, if_neg counted, dataLast_eq counted]
  all_goals
    by_cases zeros : ∀ v ∈ seen, v = 0
    · rw [compared_zeros zeros]
      grind [dataAddValue]
    · rw [compared_concat zeros]
      grind [dataAddValue]

lemma holds_run (few : rest.length < UInt32.size)
    (bounded : total (first :: rest) < UInt64.size) :
    Holds window (first :: rest) ((first :: rest).foldl dataAddValue (zeroed window)) := by
  induction rest using reverseRecOn with
  | nil =>
    have only : compared [first] = [first] := @compared_zeros first [] (by simp)
    constructor
    case inside => grind [dataAddValue, zeroed]
    case recent => grind [dataAddValue, zeroed, newest]
    all_goals simp [dataAddValue, zeroed, differences, jitter, total, only]
  | append_singleton rest value ih =>
    rw [length_append, length_singleton] at few
    rw [← cons_append, total_concat] at bounded
    rw [← cons_append, foldl_append]
    exact holds_addValue (ih (by omega) (by omega)) (cons_ne_nil _ _) few bounded

lemma least_iff {values : List UInt64} (given : values ≠ [])
    (least : low ∈ compared values ∧ ∀ v ∈ compared values, low ≤ v) :
    (low ∈ values ∧ ∀ v ∈ values, low ≤ v) ↔ (0 ∈ values → 0 ∈ compared values) := by
  constructor
  · rintro ⟨-, below⟩ zero
    rw [← UInt64.le_zero_iff.mp (below 0 zero)]
    exact least.1
  · intro kept
    refine ⟨mem_compared least.1 given, fun v member => ?_⟩
    rcases compared_or_zero member with rfl | counts
    · exact least.2 0 (kept member)
    · exact least.2 v counts

/-- The maximum is right for every series. The minimum is unless a zero stands at the start of
the series only, before other values, and the jitter unless it overflows or, without a window,
differs from the sum of all values but the first. -/
theorem analyze_values_iff (s : AnalyzeStruct) (first : UInt64) (rest : List UInt64)
    (fresh : Fresh s) (few : rest.length < UInt32.size)
    (bounded : total (first :: rest) < UInt64.size) :
    let values := first :: rest
    let after := values.foldl dataAddValue s
    (after.maxVal ∈ values ∧ ∀ v ∈ values, v ≤ after.maxVal) ∧
      ((after.minVal ∈ values ∧ ∀ v ∈ values, after.minVal ≤ v) ↔
        (0 ∈ values → 0 ∈ compared values)) ∧
      (after.jitterTotal.toNat = jitter values ↔
        if s.values.length = 0 then total rest = jitter values
        else jitter values < UInt64.size) := by
  intro values after
  have holds : Holds s.values.length values after := by
    have run : Holds s.values.length values (values.foldl dataAddValue (zeroed _)) :=
      holds_run few bounded
    rwa [← fresh.eq_zeroed] at run
  have given : values ≠ [] := cons_ne_nil _ _
  refine ⟨⟨mem_compared holds.greatest.1 given, fun v member => ?_⟩,
    least_iff given holds.least, ?_⟩
  · rcases compared_or_zero member with rfl | counts
    · exact UInt64.zero_le
    · exact holds.greatest.2 v counts
  · rw [holds.jitter, differences]
    split
    · have small : total rest < UInt64.size := Nat.lt_of_le_of_lt (total_le first rest) bounded
      rw [tail_cons, UInt64.toNat_ofNat_of_lt' small]
    · rw [UInt64.toNat_ofNat', Nat.mod_eq_iff_lt (by decide)]

theorem analyze_values_sample :
    let after := [3, 0, 5].foldl dataAddValue (initDataAnalysis 2)
    after.minVal = 0 ∧ after.jitterTotal.toNat = jitter [3, 0, 5] :=
  ⟨by decide, (analyze_values_iff (initDataAnalysis 2) 3 [0, 5] (.init 2) (by decide)
    (by decide)).2.2.mpr (by decide)⟩

/-- A leading zero is forgotten, and without a window the last value is. -/
theorem leading_zero_lost :
    ([0, 5].foldl dataAddValue (initDataAnalysis 1)).minVal = 5 ∧
      ([5, 5].foldl dataAddValue (initDataAnalysis 0)).jitterTotal = 5 ∧ jitter [5, 5] = 0 := by
  decide

end Ndpi.Guarantees.Analyze
