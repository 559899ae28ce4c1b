import Ndpi.Lib.LastWrite
import Ndpi.Source.Cache.Lru

/-!
# What the LRU cache answers

A slot of the cache holds what the last call that changed it left there, so a
lookup is determined by the log of the calls: colliding keys, expiry and lookups
that remove what they find included.
-/
namespace Ndpi.Guarantees.LruCache
open Lib Source.Cache Option

variable {numEntries : UInt32} (hash : UInt64 → UInt32)

/-- What a slot holds: nothing, or the last key, value and time stored in it. -/
def contents (entry : LruCacheEntry) : Option (UInt64 × UInt16 × UInt32) :=
  if entry.isFull then some (entry.key, entry.value, entry.timestamp) else none

section

variable (c : LruCache numEntries) (slot : Fin numEntries.toNat)

/-- A call changes a slot by storing in it, or by finding its key there and
removing it. -/
def Changes : LruEvent → Prop
  | .added key _ _ => c.slot hash key = slot
  | .searched key clean _ found => c.slot hash key = slot ∧ clean = true ∧ found.isSome = true

/-- What a call leaves in a slot it changes. -/
def slotEffect : LruEvent → Option (Option (UInt64 × UInt16 × UInt32))
  | .added key value nowSec =>
    if c.slot hash key = slot then some (some (key, value, nowSec)) else none
  | .searched key clean _ found =>
    if c.slot hash key = slot ∧ clean = true ∧ found.isSome = true then some none else none

lemma slotEffect_eq_none_iff :
    slotEffect hash c slot event = none ↔ ¬Changes hash c slot event := by
  cases event with
  | added key value nowSec => simp [slotEffect, Changes]
  | searched key clean nowSec found => simp [slotEffect, Changes]

end

/-- The call was a successful lookup of the key that removed it. -/
def Removes (key : UInt64) : LruEvent → Prop
  | .added _ _ _ => False
  | .searched searched clean _ found => searched = key ∧ clean = true ∧ found.isSome = true

/-- Every slot holds what the log says was left there last. -/
def Tracks (c : LruCache numEntries) (log : List LruEvent) : Prop :=
  ∀ slot, contents (c.entries.get slot) = (lastWrite (slotEffect hash c slot) log).join

lemma setEntry_entries (c : LruCache numEntries) (slot : Fin numEntries.toNat) :
    (c.setEntry slot entry).entries[other.1] =
      if slot = other then entry else c.entries[other.1] := by
  simp [LruCache.setEntry, Vector.getElem_set, Fin.ext_iff]

lemma tracks_init (positive : 0 < numEntries.toNat) (ttl : UInt32) :
    Tracks hash (lruCacheInit numEntries positive ttl) [] := by
  intro slot
  show contents (lruCacheInit numEntries positive ttl).entries[slot.1] = _
  simp [lruCacheInit, contents]

/-- One call: a slot holds the call's effect on it, or what it held before. -/
lemma tracks_concat {c : LruCache numEntries}
    (tracks : Tracks hash c log) (step : ∀ slot, contents after.entries[slot.1] =
      (slotEffect hash c slot event).getD (contents c.entries[slot.1])) :
    Tracks hash after (log ++ [event]) := by
  intro slot
  have same : slotEffect hash after slot = slotEffect hash c slot := rfl
  show contents after.entries[slot.1] = _
  rw [step slot, same, lastWrite_concat]
  cases slotEffect hash c slot event with
  | none => exact tracks slot
  | some left => rfl

lemma lruAddToCache_slots (c : LruCache numEntries) (key : UInt64) (value : UInt16)
    (nowSec : UInt32) (slot : Fin numEntries.toNat) :
    contents (lruAddToCache hash c key value nowSec).entries[slot.1] =
      (slotEffect hash c slot (.added key value nowSec)).getD (contents c.entries[slot.1]) := by
  simp only [lruAddToCache, setEntry_entries, slotEffect]
  split <;> rfl

section
variable (c : LruCache numEntries) (key : UInt64) (clean : Bool) (nowSec : UInt32)

/-- A lookup answers from its slot. -/
lemma lruFindCache_answer (value : UInt16) :
    (lruFindCache hash c key clean nowSec).1 = some value ↔
      ∃ time, contents (c.entries.get (c.slot hash key)) = some (key, value, time) ∧ time ≤ nowSec ∧
        (c.ttl = 0 ∨ nowSec - time ≤ c.ttl) := by
  have place : c.entries.get (c.slot hash key) = c.entries[(c.slot hash key).1] := rfl
  simp only [lruFindCache, contents, place]
  generalize c.entries[(c.slot hash key).1] = entry
  split
  · next found =>
    obtain ⟨full, rfl, fresh⟩ := found
    simp only [full, if_true, Option.some.injEq, Prod.mk.injEq, true_and]
    constructor
    · rintro rfl
      exact ⟨_, ⟨rfl, rfl⟩, fresh⟩
    · rintro ⟨time, ⟨rfl, rfl⟩, -⟩
      rfl
  · next missed =>
    constructor
    · intro absent
      cases absent
    · rintro ⟨time, held, fresh⟩
      split at held
      · next full =>
        cases held
        exact absurd ⟨full, rfl, fresh⟩ missed
      · cases held

lemma lruFindCache_ttl :
    (lruFindCache hash c key clean nowSec).2.ttl = c.ttl := by
  unfold lruFindCache
  simp only
  split
  · split <;> rfl
  · rfl

lemma lruFindCache_slots (slot : Fin numEntries.toNat) :
    contents (lruFindCache hash c key clean nowSec).2.entries[slot.1] =
      (slotEffect hash c slot
        (.searched key clean nowSec (lruFindCache hash c key clean nowSec).1)).getD
          (contents c.entries[slot.1]) := by
  unfold lruFindCache
  simp only
  split
  · cases clean with
    | false => simp [slotEffect]
    | true =>
      simp only [if_true, slotEffect, isSome_some, and_true, setEntry_entries]
      split <;> rfl
  · simp [slotEffect]

end

variable (state : LruCache numEntries × List LruEvent)

lemma lruStep_tracks (call : LruCall) (tracks : Tracks hash state.1 state.2) :
    Tracks hash (lruStep hash state call).1 (lruStep hash state call).2 := by
  cases call with
  | add key value nowSec =>
    exact tracks_concat hash tracks (lruAddToCache_slots hash state.1 key value nowSec)
  | find key clean nowSec =>
    exact tracks_concat hash tracks (lruFindCache_slots hash state.1 key clean nowSec)

lemma lruStep_ttl (call : LruCall) : (lruStep hash state call).1.ttl = state.1.ttl := by
  cases call with
  | add key value nowSec => rfl
  | find key clean nowSec => exact lruFindCache_ttl hash state.1 key clean nowSec

lemma lruRun_tracks (calls : List LruCall) (state : LruCache numEntries × List LruEvent)
    (tracks : Tracks hash state.1 state.2) :
    Tracks hash (calls.foldl (lruStep hash) state).1 (calls.foldl (lruStep hash) state).2 ∧
      (calls.foldl (lruStep hash) state).1.ttl = state.1.ttl := by
  induction calls generalizing state with
  | nil => exact ⟨tracks, rfl⟩
  | cons call rest ih =>
    obtain ⟨after, ttl⟩ := ih (lruStep hash state call) (lruStep_tracks hash state call tracks)
    exact ⟨after, ttl.trans (lruStep_ttl hash state call)⟩

variable {c : LruCache numEntries}

lemma slotEffect_stored (effect : slotEffect hash c slot event = some (some (key, value, time))) :
    event = .added key value time := by
  cases event with
  | added key value nowSec =>
    simp only [slotEffect] at effect
    split at effect
    · cases effect
      rfl
    · cases effect
  | searched key clean nowSec found =>
    simp only [slotEffect] at effect
    split at effect <;> cases effect

lemma Removes.changes (removes : Removes key event) : Changes hash c (c.slot hash key) event := by
  cases event with
  | added key value nowSec => cases removes
  | searched searched clean nowSec found =>
    obtain ⟨rfl, cleaned⟩ := removes
    exact ⟨rfl, cleaned⟩

lemma fresh_iff {nowSec : UInt32} :
    (time ≤ nowSec ∧ (ttl = 0 ∨ nowSec - time ≤ ttl)) ↔
      time.toNat ≤ nowSec.toNat ∧ (ttl = 0 ∨ nowSec.toNat - time.toNat ≤ ttl.toNat) := by
  rw [← UInt32.le_iff_toNat_le]
  constructor
  · rintro ⟨past, alive⟩
    rw [UInt32.le_iff_toNat_le, UInt32.toNat_sub_of_le _ _ past] at alive
    exact ⟨past, alive⟩
  · rintro ⟨past, alive⟩
    rw [← UInt32.toNat_sub_of_le _ _ past, ← UInt32.le_iff_toNat_le] at alive
    exact ⟨past, alive⟩

/-- A lookup after any sequence of calls finds a value exactly if the last call
that changed the key's slot was an add of that key and value, not in the future
and not expired, and no lookup has removed the key since. -/
theorem lru_find_iff_last_change_added (positive : 0 < numEntries.toNat) (ttl : UInt32)
    (calls : List LruCall) (key : UInt64) (value : UInt16) (clean : Bool) (nowSec : UInt32) :
    let init := lruCacheInit numEntries positive ttl
    let reached := lruRun hash init calls
    (lruFindCache hash reached.1 key clean nowSec).1 = some value ↔
      ∃ before after time, reached.2 = before ++ .added key value time :: after ∧
        (∀ later ∈ after, ¬Changes hash init (init.slot hash key) later) ∧
        (∀ later ∈ after, ¬Removes key later) ∧
        time.toNat ≤ nowSec.toNat ∧ (init.ttl = 0 ∨ nowSec.toNat - time.toNat ≤ init.ttl.toNat) := by
  intro init reached
  obtain ⟨tracks, ttlKept⟩ := lruRun_tracks hash calls (init, []) (tracks_init hash positive ttl)
  have sameTtl : reached.1.ttl = init.ttl := ttlKept
  have held := tracks (init.slot hash key)
  have answer := lruFindCache_answer hash reached.1 key clean nowSec value
  rw [answer]
  constructor
  · rintro ⟨time, stored, fresh⟩
    have written : lastWrite (slotEffect hash init (init.slot hash key)) reached.2 =
        some (some (key, value, time)) := join_eq_some_iff.mp (held.symm.trans stored)
    obtain ⟨before, event, after, log, effect, untouched⟩ := lastWrite_eq_some_iff.mp written
    have unchanged : ∀ later ∈ after, ¬Changes hash init (init.slot hash key) later := by
      intro later member
      exact (slotEffect_eq_none_iff hash init _).mp (untouched later member)
    rw [slotEffect_stored hash effect] at log
    refine ⟨before, after, time, log, unchanged, ?_, ?_⟩
    · intro later member removes
      exact unchanged later member (Removes.changes hash removes)
    · rw [sameTtl] at fresh
      exact fresh_iff.mp fresh
  · rintro ⟨before, after, time, log, untouched, -, fresh⟩
    have written : lastWrite (slotEffect hash init (init.slot hash key)) reached.2 =
        some (some (key, value, time)) := by
      refine lastWrite_eq_some_iff.mpr ⟨before, _, after, log, if_pos rfl, ?_⟩
      intro later member
      exact (slotEffect_eq_none_iff hash init _).mpr (untouched later member)
    refine ⟨time, held.trans (join_eq_some_iff.mpr written), ?_⟩
    rw [sameTtl]
    exact fresh_iff.mpr fresh

/-- A value stored under key 1 is still found after a lookup of another key in
the same slot. -/
theorem lru_find_iff_last_change_added_sample :
    let reached := lruRun keyHash (lruCacheInit 1 (by decide) 5) [.add 1 7 10, .find 2 true 11]
    (lruFindCache keyHash reached.1 1 false 15).1 = some 7 := by
  apply (@lru_find_iff_last_change_added 1 keyHash (by decide) 5
    [.add 1 7 10, .find 2 true 11] 1 7 false 15).mpr
  refine ⟨[], [.searched 2 true 11 none], 10, rfl, ?_, ?_, by decide, .inr (by decide)⟩
  · simp [Changes]
  · simp [Removes]

end Ndpi.Guarantees.LruCache
