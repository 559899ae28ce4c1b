import Ndpi.Lib.Words

/-!
# Binary bitmaps

`ndpi_binary_bitmap.c:38-158`: a growing array of values with their categories that is
sorted and freed of duplicates before it is searched. Allocations succeed; `qsort` and
`bsearch` do what they are specified to.
-/
namespace Ndpi.Source.BinaryBitmaps
open Lib

/-- `ndpi_binary_bitmap_entry`. -/
structure Entry where
  value : UInt64
  category : UInt8
  deriving DecidableEq, Repr

/-- `ndpi_binary_bitmap_entry_compare` does not put the first entry behind the second. -/
def Ordered (a b : Entry) : Prop := a.value ≤ b.value

/-- The two functions of the C library, with `ndpi_binary_bitmap_entry_compare`. -/
structure SortSearch where
  qsort : List Entry → List Entry
  bsearch : UInt64 → List Entry → Option Entry
  qsort_perm : ∀ entries, (qsort entries).Perm entries
  qsort_sorted : ∀ entries, (qsort entries).Pairwise Ordered
  bsearch_some : ∀ {value entries e}, entries.Pairwise Ordered → bsearch value entries = some e →
    e ∈ entries ∧ e.value = value
  bsearch_none : ∀ {value entries}, entries.Pairwise Ordered → bsearch value entries = none →
    ∀ e ∈ entries, e.value ≠ value

/-- `NDPI_BINARY_BITMAP_REALLOC_SIZE`. -/
def reallocSize : Nat := 4096

/-- `ndpi_binary_bitmap`; `entries` holds the first `num_used_entries` entries of a
block of `num_allocated_entries`, two unsigned 32-bit numbers. -/
structure BinaryBitmap where
  numAllocated : Nat
  entries : List Entry
  isCompressed : Bool
  fits : entries.length ≤ numAllocated
  small : numAllocated < 4294967296

def BinaryBitmap.alloc : BinaryBitmap where
  numAllocated := reallocSize
  entries := []
  isCompressed := false
  fits := Nat.zero_le _
  small := by decide

/-- `num_allocated_entries` when the new entry is written. -/
def BinaryBitmap.grown (b : BinaryBitmap) : Nat :=
  if b.entries.length ≥ b.numAllocated then wrap32 (b.numAllocated + reallocSize)
  else b.numAllocated

lemma BinaryBitmap.grown_lt (b : BinaryBitmap) : b.grown < 4294967296 := by
  unfold BinaryBitmap.grown
  split
  · exact wrap32_lt _
  · exact b.small

/-- `ndpi_binary_bitmap_set`; `none` if the entry is written outside the block. -/
def BinaryBitmap.set (b : BinaryBitmap) (value : UInt64) (category : UInt8) :
    Option BinaryBitmap :=
  if inside : b.entries.length < b.grown then
    some
      { numAllocated := b.grown
        entries := b.entries ++ [⟨value, category⟩]
        isCompressed := false
        fits := by rw [List.length_append]; exact inside
        small := b.grown_lt }
  else none

/-- The `memcpy` of the entry at `i` to `new_len`. -/
def copyEntry (entries : List Entry) (newLen i : Nat) (e : Entry) : List Entry :=
  if newLen ≠ i then entries.set newLen e else entries

@[simp] lemma copyEntry_length :
    (copyEntry entries newLen i e).length = entries.length := by
  unfold copyEntry
  split
  · exact List.length_set
  · rfl

/-- The loop of `ndpi_binary_bitmap_compress`: the entries as they are left in memory,
and `new_len`. -/
def removeDuplicates (entries : List Entry) (i newLen : Nat) (oldValue : UInt64) :
    List Entry × Nat :=
  if inside : i < entries.length then
    if entries[i].value ≠ oldValue then
      removeDuplicates (copyEntry entries newLen i entries[i]) (i + 1) (newLen + 1)
        entries[i].value
    else removeDuplicates entries (i + 1) newLen oldValue
  else (entries, newLen)
termination_by entries.length - i
decreasing_by
  · rw [copyEntry_length]
    omega
  · omega

lemma removeDuplicates_le (entries : List Entry) (i newLen : Nat) (oldValue : UInt64)
    (behind : newLen ≤ i) (start : i ≤ entries.length) :
    (removeDuplicates entries i newLen oldValue).2 ≤ entries.length := by
  fun_induction removeDuplicates entries i newLen oldValue with
  | case1 entries i newLen oldValue inside fresh ih =>
    rw [copyEntry_length] at ih
    exact ih (by omega) (by omega)
  | case2 entries i newLen oldValue inside known ih => exact ih (by omega) (by omega)
  | case3 entries i newLen oldValue ended => exact behind.trans start

/-- `ndpi_binary_bitmap_compress`. -/
def BinaryBitmap.compress (libc : SortSearch) (b : BinaryBitmap) : BinaryBitmap :=
  match sorted : if b.entries.length > 1 then libc.qsort b.entries else b.entries with
  | [] => { b with isCompressed := true }
  | first :: rest =>
    let result := removeDuplicates (first :: rest) 1 1 first.value
    { numAllocated := result.2
      entries := result.1.take result.2
      isCompressed := true
      fits := by rw [List.length_take]; omega
      small := by
        have length : (first :: rest).length = b.entries.length := by
          rw [← sorted]
          split
          · exact (libc.qsort_perm _).length_eq
          · rfl
        have bound := removeDuplicates_le (first :: rest) 1 1 first.value (Nat.le_refl 1) (by simp)
        exact Nat.lt_of_le_of_lt (bound.trans (length.le.trans b.fits)) b.small }

/-- The bitmap a lookup searches. -/
def BinaryBitmap.searched (libc : SortSearch) (b : BinaryBitmap) : BinaryBitmap :=
  if b.isCompressed then b else b.compress libc

/-- `ndpi_binary_bitmap_isset`: the bitmap it leaves and the category if it returns
true. -/
def BinaryBitmap.isset (libc : SortSearch) (b : BinaryBitmap) (value : UInt64) :
    BinaryBitmap × Option UInt8 :=
  let b := b.searched libc
  (b, if b.entries.length > 0 then (libc.bsearch value b.entries).map Entry.category else none)

inductive BitmapCall where
  | set (value : UInt64) (category : UInt8)
  | compress
  | isset (value : UInt64)
  deriving DecidableEq, Repr

def BinaryBitmap.apply (libc : SortSearch) (b : BinaryBitmap) : BitmapCall → Option BinaryBitmap
  | .set value category => b.set value category
  | .compress => some (b.compress libc)
  | .isset value => some (b.isset libc value).1

def BinaryBitmap.run (libc : SortSearch) : BinaryBitmap → List BitmapCall → Option BinaryBitmap
  | b, [] => some b
  | b, call :: calls => (b.apply libc call).bind fun next => next.run libc calls

end Ndpi.Source.BinaryBitmaps
