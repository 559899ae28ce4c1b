import Ndpi.Lib.Distinct
import Ndpi.Source.BinaryBitmaps

/-!
# A binary bitmap is a set of values

Whatever the calls, a value is found exactly if it was set, with one of the categories
it was set with, and compressing leaves the values in strictly increasing order. The
number of entries must not come so close to the range of the unsigned 32-bit counters
that the size of the next block wraps around.
-/
namespace Ndpi.Guarantees.BinaryBitmaps
open Lib Source.BinaryBitmaps List Option

lemma copyEntry_eq :
    copyEntry (kept ++ gap ++ e :: rest) kept.length (kept.length + gap.length) e =
      (kept ++ [e]) ++ (gap ++ [e]).tail ++ rest := by
  unfold copyEntry
  cases gap with
  | nil => simp
  | cons g gap => simp

/-- The loop over a list whose first entries are those kept so far, followed by a gap
and the entries still to be seen. -/
lemma removeDuplicates_eq (kept gap rest : List Entry) (oldValue : UInt64) :
    let result := removeDuplicates (kept ++ gap ++ rest) (kept.length + gap.length) kept.length
      oldValue
    result.1.take result.2 = kept ++ keepNew Entry.value oldValue rest := by
  induction rest generalizing kept gap oldValue with
  | nil =>
    have ended : ¬kept.length + gap.length < (kept ++ gap ++ []).length := by simp
    rw [removeDuplicates.eq_def, dif_neg ended]
    simp [keepNew]
  | cons e rest ih =>
    have inside : kept.length + gap.length < (kept ++ gap ++ e :: rest).length := by simp
    have here : (kept ++ gap ++ e :: rest)[kept.length + gap.length] = e := by
      rw [getElem_append_right (by simp)]
      simp
    rw [removeDuplicates.eq_def, dif_pos inside, keepNew]
    simp only [here]
    split
    · have moved := ih (kept ++ [e]) (gap ++ [e]).tail e.value
      have place : (kept ++ [e]).length + (gap ++ [e]).tail.length =
          kept.length + gap.length + 1 := by
        simp only [length_append, length_tail, length_singleton]
        omega
      rw [place, length_append, length_singleton] at moved
      rw [copyEntry_eq]
      simpa using moved
    · have skipped := ih kept (gap ++ [e]) oldValue
      simpa [add_assoc] using skipped

/-- Compressing keeps the first entry for each value of the sorted entries. -/
lemma compress_entries {libc : SortSearch} {b : BinaryBitmap} :
    ∃ sorted : List Entry, sorted.Perm b.entries ∧ sorted.Pairwise Ordered ∧
      (b.compress libc).entries =
        match sorted with
        | [] => []
        | first :: rest => first :: keepNew Entry.value first.value rest := by
  refine ⟨if b.entries.length > 1 then libc.qsort b.entries else b.entries, ?_, ?_, ?_⟩
  · split
    · exact libc.qsort_perm _
    · exact .refl _
  · split
    · exact libc.qsort_sorted _
    · next short =>
      match entries : b.entries with
      | [] => exact .nil
      | [e] => exact pairwise_singleton _ e
      | e :: d :: rest => simp [entries] at short
  · unfold BinaryBitmap.compress
    split
    · next empty =>
      rw [empty]
      split at empty
      · exact length_eq_zero_iff.mp (by rw [← (libc.qsort_perm _).length_eq, empty]; rfl)
      · exact empty
    · next first rest sorted =>
      apply (removeDuplicates_eq [first] [] rest first.value).trans
      simp only [sorted]
      rfl

/-- The values are in strictly increasing order. -/
def Increasing (entries : List Entry) : Prop := entries.Pairwise fun a b => a.value < b.value

lemma Increasing.ordered (increasing : Increasing entries) :
    entries.Pairwise Ordered :=
  List.Pairwise.imp (fun {_ _} less => UInt64.le_of_lt less) increasing

lemma compress_increasing {libc : SortSearch} {b : BinaryBitmap} :
    Increasing (b.compress libc).entries := by
  obtain ⟨sorted, -, ordered, eq⟩ := compress_entries
  rw [eq]
  cases sorted with
  | nil => exact .nil
  | cons first rest =>
    obtain ⟨above, others⟩ := pairwise_cons.mp ordered
    have kept : (∀ e ∈ keepNew Entry.value first.value rest, first.value < e.value) ∧
        Increasing (keepNew Entry.value first.value rest) :=
      keepNew_increasing UInt64.lt_of_le_of_ne UInt64.lt_trans above others
    exact List.Pairwise.cons kept.1 kept.2

lemma mem_of_mem_compress {libc : SortSearch} {b : BinaryBitmap}
    (mem : e ∈ (b.compress libc).entries) : e ∈ b.entries := by
  obtain ⟨sorted, perm, -, eq⟩ := compress_entries
  rw [eq] at mem
  rw [← perm.mem_iff]
  cases sorted with
  | nil => exact mem
  | cons first rest => exact ((keepNew_sublist first.value rest).cons_cons first).mem mem

lemma exists_mem_compress (libc : SortSearch) {b : BinaryBitmap} (mem : e ∈ b.entries) :
    ∃ kept ∈ (b.compress libc).entries, kept.value = e.value := by
  obtain ⟨sorted, perm, -, eq⟩ := compress_entries
  rw [eq]
  rw [← perm.mem_iff] at mem
  cases sorted with
  | nil => cases mem
  | cons first rest =>
    rcases mem_cons.mp mem with rfl | later
    · exact ⟨e, mem_cons_self, rfl⟩
    · rcases key_kept first.value later with same | ⟨kept, inside, same⟩
      · exact ⟨first, mem_cons_self, same.symm⟩
      · exact ⟨kept, mem_cons_of_mem first inside, same⟩

/-- The entries are those of past calls, every value set is there, and a bitmap marked
as compressed is in order. -/
structure Tracks (past : List BitmapCall) (b : BinaryBitmap) : Prop where
  sound : ∀ e ∈ b.entries, .set e.value e.category ∈ past
  complete : ∀ value category, .set value category ∈ past → ∃ e ∈ b.entries, e.value = value
  ordered : b.isCompressed = true → Increasing b.entries

/-- The size of the next block does not wrap around. -/
def Roomy (b : BinaryBitmap) : BitmapCall → Prop
  | .set _ _ => b.entries.length < b.numAllocated ∨ b.numAllocated + reallocSize < 4294967296
  | _ => True

section

variable {libc : SortSearch} {past : List BitmapCall} {b : BinaryBitmap}

lemma alloc_tracks : Tracks [] .alloc where
  sound := by simp [BinaryBitmap.alloc]
  complete := by simp
  ordered := by simp [BinaryBitmap.alloc]

lemma compress_tracks (tracks : Tracks past b) : Tracks past (b.compress libc) where
  sound e mem := tracks.sound e (mem_of_mem_compress mem)
  complete value category called := by
    obtain ⟨e, mem, rfl⟩ := tracks.complete value category called
    exact exists_mem_compress libc mem
  ordered _ := compress_increasing

/-- Calls that set nothing do not matter. -/
lemma Tracks.append (tracks : Tracks past b)
    (other : ∀ value category, call ≠ .set value category) : Tracks (past ++ [call]) b where
  sound e mem := mem_append_left _ (tracks.sound e mem)
  complete value category called := by
    rcases mem_append.mp called with before | now
    · exact tracks.complete value category before
    · exact absurd (mem_singleton.mp now).symm (other value category)
  ordered := tracks.ordered

lemma set_inside_iff :
    b.entries.length < b.grown ↔ Roomy b (.set value category) := by
  have fits := b.fits
  have small := b.small
  unfold BinaryBitmap.grown Roomy wrap32 reallocSize
  split
  · by_cases wraps : b.numAllocated + 4096 < 4294967296
    · rw [Nat.mod_eq_of_lt wraps]
      omega
    · omega
  · omega

lemma set_tracks {next : BinaryBitmap} (tracks : Tracks past b)
    (done : b.set value category = some next) :
    Tracks (past ++ [.set value category]) next := by
  unfold BinaryBitmap.set at done
  split at done
  · cases done
    refine ⟨?_, ?_, fun compressed => absurd compressed (by simp)⟩
    · intro e mem
      rcases mem_append.mp mem with before | now
      · exact mem_append_left _ (tracks.sound e before)
      · rw [mem_singleton.mp now]
        exact mem_append_right _ (mem_singleton_self _)
    · intro other category' called
      rcases mem_append.mp called with before | now
      · obtain ⟨e, mem, same⟩ := tracks.complete other category' before
        exact ⟨e, mem_append_left _ mem, same⟩
      · cases mem_singleton.mp now
        exact ⟨_, mem_append_right _ (mem_singleton_self _), rfl⟩
  · cases done

lemma searched_tracks {libc : SortSearch} (tracks : Tracks past b) :
    Tracks past (b.searched libc) ∧ Increasing (b.searched libc).entries := by
  unfold BinaryBitmap.searched
  split
  · next compressed => exact ⟨tracks, tracks.ordered compressed⟩
  · exact ⟨compress_tracks tracks, compress_increasing⟩

/-- A call succeeds exactly when there is room, and its effect is tracked. -/
lemma apply_tracks (libc : SortSearch) (tracks : Tracks past b) (roomy : Roomy b call) :
    ∃ next, b.apply libc call = some next ∧ Tracks (past ++ [call]) next := by
  cases call with
  | set value category =>
    have inside := set_inside_iff.mpr roomy
    refine ⟨_, dif_pos inside, ?_⟩
    exact set_tracks tracks (dif_pos inside)
  | compress => exact ⟨_, rfl, (compress_tracks tracks).append (by simp)⟩
  | isset value => exact ⟨_, rfl, (searched_tracks tracks).1.append (by simp)⟩

/-- What the answer of a lookup says. -/
lemma isset_answer {libc : SortSearch} (tracks : Tracks past b) :
    (∀ category, (b.isset libc value).2 = some category → .set value category ∈ past) ∧
      ((b.isset libc value).2 = none → ∀ category, .set value category ∉ past) := by
  obtain ⟨kept, increasing⟩ := searched_tracks tracks
  dsimp only [BinaryBitmap.isset]
  split
  · cases search : libc.bsearch value (b.searched libc).entries with
    | none =>
      refine ⟨by simp, fun _ category called => ?_⟩
      obtain ⟨e, mem, same⟩ := kept.complete value category called
      exact libc.bsearch_none increasing.ordered search e mem same
    | some e =>
      refine ⟨fun category answer => ?_, by simp⟩
      obtain ⟨mem, rfl⟩ := libc.bsearch_some increasing.ordered search
      cases answer
      exact kept.sound e mem
  · next empty =>
    refine ⟨by simp, fun _ category called => ?_⟩
    obtain ⟨e, mem, -⟩ := kept.complete value category called
    exact empty (length_pos_of_mem mem)

end

/-- There is room at every call of a run. -/
def RoomyRun (libc : SortSearch) : BinaryBitmap → List BitmapCall → Prop
  | _, [] => True
  | b, call :: calls =>
    Roomy b call ∧ ∀ next, b.apply libc call = some next → RoomyRun libc next calls

section

variable {libc : SortSearch} {past : List BitmapCall} {b : BinaryBitmap}

lemma roomy_of_apply {next : BinaryBitmap} (done : b.apply libc call = some next) :
    Roomy b call := by
  cases call with
  | set value category =>
    apply set_inside_iff.mp
    by_contra outside
    have failed : b.set value category = none := dif_neg outside
    rw [BinaryBitmap.apply, failed] at done
    cases done
  | compress => trivial
  | isset value => trivial

variable {calls : List BitmapCall}

lemma run_tracks (tracks : Tracks past b) (roomy : RoomyRun libc b calls) :
    ∃ final, b.run libc calls = some final ∧ Tracks (past ++ calls) final := by
  induction calls generalizing past b with
  | nil => exact ⟨b, rfl, by rwa [append_nil]⟩
  | cons call calls ih =>
    obtain ⟨next, done, tracks'⟩ := apply_tracks libc tracks roomy.1
    obtain ⟨final, ran, tracks''⟩ := ih tracks' (roomy.2 next done)
    rw [append_assoc] at tracks''
    exact ⟨final, by rw [BinaryBitmap.run, done]; exact ran, tracks''⟩

lemma roomyRun_of_run (ran : b.run libc calls = some final) : RoomyRun libc b calls := by
  induction calls generalizing b with
  | nil => trivial
  | cons call calls ih =>
    obtain ⟨next, done, ran⟩ := bind_eq_some_iff.mp ran
    refine ⟨roomy_of_apply done, fun other done' => ?_⟩
    rw [done] at done'
    cases done'
    exact ih ran

end

/-- The calls can be made, and afterwards a value is found exactly if it was set, with
one of its categories, and compressing leaves strictly increasing values; exactly when
there is room at every call. -/
theorem binary_bitmap_answers_iff (libc : SortSearch) (calls : List BitmapCall) :
    (∃ b, BinaryBitmap.run libc .alloc calls = some b ∧
      (∀ value, ((b.isset libc value).2.isSome = true ↔
          ∃ category, .set value category ∈ calls) ∧
        ∀ category, (b.isset libc value).2 = some category → .set value category ∈ calls) ∧
      Increasing (b.compress libc).entries) ↔
      RoomyRun libc .alloc calls := by
  constructor
  · rintro ⟨b, ran, -⟩
    exact roomyRun_of_run ran
  · intro roomy
    obtain ⟨b, ran, tracks⟩ := run_tracks alloc_tracks roomy
    rw [nil_append] at tracks
    refine ⟨b, ran, fun value => ?_, compress_increasing⟩
    obtain ⟨found, missing⟩ := isset_answer tracks
    refine ⟨⟨fun answered => ?_, fun ⟨category, called⟩ => ?_⟩, found⟩
    · obtain ⟨category, answer⟩ := isSome_iff_exists.mp answered
      exact ⟨category, found category answer⟩
    · by_contra unanswered
      exact missing (not_isSome_iff_eq_none.mp unanswered) category called

def notBehind (a b : Entry) : Bool := decide (a.value ≤ b.value)

lemma notBehind_trans (a b c : Entry) (first : notBehind a b = true)
    (second : notBehind b c = true) : notBehind a c = true :=
  decide_eq_true (UInt64.le_trans (of_decide_eq_true first) (of_decide_eq_true second))

lemma notBehind_total (a b : Entry) : (notBehind a b || notBehind b a) = true := by
  rcases UInt64.le_total a.value b.value with less | less <;> simp [notBehind, less]

/-- A sort and a search that do what is asked of them. -/
def plainSortSearch : SortSearch where
  qsort entries := entries.mergeSort notBehind
  bsearch value entries := entries.find? fun e => e.value == value
  qsort_perm entries := List.mergeSort_perm entries notBehind
  qsort_sorted entries :=
    (List.pairwise_mergeSort notBehind_trans notBehind_total entries).imp of_decide_eq_true
  bsearch_some _ found :=
    ⟨List.mem_of_find?_eq_some found, by simpa using List.find?_some found⟩
  bsearch_none _ missing e mem := by simpa using List.find?_eq_none.mp missing e mem

section

/-- A bitmap compressed to one entry and filled with `n` more. -/
structure Filled (b : BinaryBitmap) (n : Nat) : Prop where
  used : b.entries.length = 1 + n
  allocated : b.numAllocated = 1 + 4096 * ((n + 4095) / 4096)

variable {b : BinaryBitmap}

lemma set_filled (filled : Filled b n) (few : n < 4294963200) :
    ∃ next, b.set value category = some next ∧ Filled next (n + 1) := by
  obtain ⟨used, allocated⟩ := filled
  have size : b.grown = 1 + 4096 * ((n + 1 + 4095) / 4096) := by
    unfold BinaryBitmap.grown wrap32 reallocSize
    split
    · rw [Nat.mod_eq_of_lt (by omega)]
      omega
    · omega
  refine ⟨_, dif_pos (by omega), ?_, size⟩
  rw [length_append, used]
  rfl

/-- A full block whose size wraps around cannot take another entry. -/
lemma set_overflows (filled : Filled b 4294963200) : b.set value category = none := by
  obtain ⟨used, allocated⟩ := filled
  have size : b.grown = 1 := by
    unfold BinaryBitmap.grown wrap32 reallocSize
    rw [if_pos (by omega)]
    omega
  exact dif_neg (by omega)

lemma run_overflows (filled : Filled b n) (total : n + more = 4294963200) :
    b.run libc (List.replicate more (.set value category) ++ [.set other category]) = none := by
  induction more generalizing b n with
  | zero =>
    obtain rfl : n = 4294963200 := total
    rw [replicate_zero, nil_append, BinaryBitmap.run, BinaryBitmap.apply, set_overflows filled]
    rfl
  | succ more ih =>
    obtain ⟨next, done, filled'⟩ := set_filled filled (by omega)
    rw [replicate_succ, cons_append, BinaryBitmap.run, BinaryBitmap.apply, done]
    exact ih filled' (by omega)

lemma compress_single (single : b.entries = [e]) : Filled (b.compress libc) 0 := by
  unfold BinaryBitmap.compress
  split
  · next empty => simp [single] at empty
  · next first rest sorted =>
    obtain ⟨rfl, rfl⟩ : first = e ∧ rest = [] := by simpa [single, eq_comm] using sorted
    have loop : removeDuplicates [first] 1 1 first.value = ([first], 1) := by
      rw [removeDuplicates.eq_def]
      rfl
    exact ⟨by simp only [loop]; rfl, by simp [loop]⟩

/-- A new bitmap with the value 5. -/
def singleBitmap : BinaryBitmap := ⟨4096, [⟨5, 0⟩], false, by decide, by decide⟩

lemma run_from_compressed (libc : SortSearch) (calls : List BitmapCall) :
    BinaryBitmap.run libc .alloc (.set 5 0 :: .compress :: calls) =
      (singleBitmap.compress libc).run libc calls := by
  have first : BinaryBitmap.alloc.set 5 0 = some singleBitmap := rfl
  rw [BinaryBitmap.run, BinaryBitmap.apply, first]
  rfl

end

/-- The value 5 set, the bitmap compressed, 5 set another 4294963200 times and then 7:
the block for the last entry is allocated with room for one entry, and the entry is
written far behind it. -/
theorem bitmap_block_wraps :
    BinaryBitmap.run plainSortSearch .alloc (.set 5 0 :: .compress ::
      (List.replicate 4294963200 (.set 5 0) ++ [.set 7 0])) = none := by
  rw [run_from_compressed]
  exact run_overflows (compress_single rfl) (zero_add _)

end Ndpi.Guarantees.BinaryBitmaps
