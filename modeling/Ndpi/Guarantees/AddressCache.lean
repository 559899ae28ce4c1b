import Ndpi.Lib.Run
import Ndpi.Source.Cache.Address

/-!
# The address cache's counter

`num_entries` counts the cached items as long as no address is inserted again
while it is cached; such an insertion counts an item that it does not add.
-/
namespace Ndpi.Guarantees.AddressCache
open Lib Source.Cache List Option

/-- The number of items reachable in the buckets. -/
def reachable (cache : AddressCache) : Nat := (cache.addressCacheRoot.map List.length).sum

/-- The counter is right and within the limit. -/
structure Counted (cache : AddressCache) : Prop where
  entries : cache.numEntries.toNat = reachable cache
  limit : cache.numEntries ≤ cache.maxNumEntries

/-- The address has an item in its bucket that a lookup would not remove. -/
def cached (cache : AddressCache) (ipAddr : IpAddr) (epochNow : UInt32) : Bool :=
  (cache.bucket (cache.hashId ipAddr)).any
    fun item => !item.expired epochNow && item.addr == ipAddr

/-- The call does not insert an address that is already cached. -/
def Fresh (cache : AddressCache) : AddressCall → Prop
  | .insert env ipAddr hostname epochNow _ =>
    hostname = none ∨ cached cache ipAddr (if epochNow = 0 then env.time else epochNow) = false
  | .find _ _ => True
  | .flushExpired _ => True

lemma hashId_lt (cache : AddressCache) (ipAddr : IpAddr) :
    cache.hashId ipAddr < cache.addressCacheRoot.length := Nat.mod_lt _ cache.rooted

lemma sum_length_set (buckets : List (List α)) (index : Nat)
    (inside : index < buckets.length) (items : List α) :
    ((buckets.set index items).map List.length).sum + (buckets.getD index []).length =
      (buckets.map List.length).sum + items.length := by
  induction buckets generalizing index with
  | nil => cases inside
  | cons first rest ih =>
    cases index with
    | zero =>
      simp only [set_cons_zero, map_cons, sum_cons, getD_cons_zero]
      omega
    | succ index =>
      have tail := ih index (by simpa using inside)
      simp only [set_cons_succ, map_cons, sum_cons, getD_cons_succ]
      omega

variable {hashId : Nat}

/-- Replacing a bucket changes the number of items by the difference. -/
lemma reachable_setBucket (cache : AddressCache)
    (inside : hashId < cache.addressCacheRoot.length) (items : List AddressCacheItem) :
    reachable (cache.setBucket hashId items) + (cache.bucket hashId).length =
      reachable cache + items.length := sum_length_set _ _ inside items

lemma reachable_filter (purge : α → Bool) (buckets : List (List α)) :
    ((buckets.map (·.filter (!purge ·))).map List.length).sum +
      (buckets.map (·.countP purge)).sum = (buckets.map List.length).sum := by
  induction buckets with
  | nil => rfl
  | cons first rest ih =>
    have split := length_eq_countP_add_countP purge (l := first)
    simp only [map_cons, sum_cons, ← countP_eq_length_filter] at ih ⊢
    have negated : first.countP (fun item => decide ¬purge item = true) =
        first.countP (fun item => !purge item) := by simp
    omega

lemma findInBucket_length (ipAddr : IpAddr) (epochNow : UInt32) (items : List AddressCacheItem) :
    (findInBucket ipAddr epochNow items).2.1.length +
      (findInBucket ipAddr epochNow items).2.2 = items.length := by
  induction items with
  | nil => rfl
  | cons root next ih =>
    simp only [findInBucket]
    generalize findInBucket ipAddr epochNow next = result at ih ⊢
    split
    · rw [length_cons, ← ih]
      rfl
    · split
      · rfl
      · rw [length_cons, length_cons, ← ih]
        exact Nat.succ_add _ _

lemma findInBucket_found (ipAddr : IpAddr) (epochNow : UInt32) (items : List AddressCacheItem) :
    (findInBucket ipAddr epochNow items).1.isSome =
      items.any fun item => !item.expired epochNow && item.addr == ipAddr := by
  induction items with
  | nil => rfl
  | cons root next ih =>
    simp only [findInBucket, any_cons]
    split
    · next expired => simp [expired, ih]
    · next alive =>
      split
      · next here => simp [alive, here]
      · next other => simp [other, ih]

/-- Removing items and counting them off keeps the counter right. -/
lemma Counted.shrink {after : AddressCache} (counted : Counted cache) (removed : Nat)
    (fewer : reachable after + removed = reachable cache)
    (entries : after.numEntries = cache.numEntries - UInt32.ofNat removed)
    (sameMax : after.maxNumEntries = cache.maxNumEntries) : Counted after := by
  have right := counted.entries
  have limit := UInt32.le_iff_toNat_le.mp counted.limit
  have small := cache.numEntries.toNat_lt
  have word : (UInt32.ofNat removed).toNat = removed := UInt32.toNat_ofNat_of_lt'
    (lt_of_le_of_lt (by omega : removed ≤ cache.numEntries.toNat) small)
  have inside : UInt32.ofNat removed ≤ cache.numEntries := UInt32.le_iff_toNat_le.mpr (by omega)
  have value := UInt32.toNat_sub_of_le _ _ inside
  rw [← entries] at value
  refine ⟨by omega, ?_⟩
  rw [sameMax, UInt32.le_iff_toNat_le]
  omega

variable {cache : AddressCache}

lemma Counted.find (counted : Counted cache) (ipAddr : IpAddr) (epochNow : UInt32) :
    Counted (addressCacheFind cache ipAddr epochNow).2 := by
  have length := findInBucket_length ipAddr epochNow (cache.bucket (cache.hashId ipAddr))
  simp only [addressCacheFind]
  generalize findInBucket ipAddr epochNow (cache.bucket (cache.hashId ipAddr)) = result at length ⊢
  have replaced := reachable_setBucket cache (hashId_lt cache ipAddr) result.2.1
  have fewer : reachable (cache.setBucket (cache.hashId ipAddr) result.2.1) + result.2.2 =
      reachable cache := by omega
  exact counted.shrink result.2.2 fewer rfl rfl

lemma purgeLoop_eq :
    purgeLoop epochNow kept numPurged items =
      (kept ++ items.filter (fun item => !decide (epochNow < item.expireEpoch)),
        numPurged + items.countP (epochNow < ·.expireEpoch)) := by
  induction items generalizing kept numPurged with
  | nil => simp [purgeLoop]
  | cons root next ih =>
    by_cases later : epochNow < root.expireEpoch
    · simp [purgeLoop, ih, later, add_assoc, add_comm]
    · simp [purgeLoop, ih, later]

/-- The flush runs the loop over every bucket. -/
lemma flushExpired_eq (cache : AddressCache) (epochNow : UInt32) :
    (addressCacheFlushExpired cache epochNow).1 =
        UInt32.ofNat (cache.addressCacheRoot.map (·.countP (epochNow < ·.expireEpoch))).sum ∧
      (addressCacheFlushExpired cache epochNow).2.addressCacheRoot =
        cache.addressCacheRoot.map (·.filter fun item => !decide (epochNow < item.expireEpoch)) := by
  simp [addressCacheFlushExpired, purgeLoop_eq, Function.comp_def]

lemma Counted.flushExpired (counted : Counted cache) (epochNow : UInt32) :
    Counted (addressCacheFlushExpired cache epochNow).2 := by
  obtain ⟨purged, root⟩ := flushExpired_eq cache epochNow
  refine counted.shrink _ ?_ (congrArg (cache.numEntries - ·) purged) rfl
  rw [reachable, root]
  exact reachable_filter _ cache.addressCacheRoot

lemma addressCacheFind_none (cache : AddressCache) (ipAddr : IpAddr) (epochNow : UInt32) :
    (addressCacheFind cache ipAddr epochNow).1 = none ↔ cached cache ipAddr epochNow = false := by
  have found := findInBucket_found ipAddr epochNow (cache.bucket (cache.hashId ipAddr))
  rw [← isSome_eq_false_iff.trans isNone_iff_eq_none]
  exact Eq.congr_left found

variable (counted : Counted cache)
include counted

/-- A new item is counted, and only added where there is room for it. -/
lemma Counted.push (inside : hashId < cache.addressCacheRoot.length)
    (item : AddressCacheItem) (room : cache.numEntries ≠ cache.maxNumEntries) :
    Counted { cache.setBucket hashId (item :: cache.bucket hashId) with
      numEntries := cache.numEntries + 1 } := by
  have replaced := reachable_setBucket cache inside (item :: cache.bucket hashId)
  have right := counted.entries
  have limit := UInt32.le_iff_toNat_le.mp counted.limit
  have differ : cache.numEntries.toNat ≠ cache.maxNumEntries.toNat :=
    fun same => room (UInt32.toNat_inj.mp same)
  have small := cache.maxNumEntries.toNat_lt
  have next : (cache.numEntries + 1).toNat = cache.numEntries.toNat + 1 := by
    rw [UInt32.toNat_add, UInt32.toNat_one]
    exact Nat.mod_eq_of_lt (by omega)
  rw [length_cons] at replaced
  constructor
  · apply next.trans
    have grown : reachable (cache.setBucket hashId (item :: cache.bucket hashId)) =
        reachable cache + 1 := by omega
    exact (congrArg (· + 1) right).trans grown.symm
  · refine UInt32.le_iff_toNat_le.mpr (le_trans (le_of_eq next) ?_)
    exact lt_of_le_of_ne limit differ

lemma Counted.insertNew (env : InsertEnv) (inside : hashId < cache.addressCacheRoot.length)
    (item : AddressCacheItem) (epochNow : UInt32) :
    Counted (insertNew env cache hashId item epochNow).2 := by
  have flushed : Counted (if cache.numEntries = cache.maxNumEntries
      then (addressCacheFlushExpired cache epochNow).2 else cache) := by
    split
    · exact counted.flushExpired epochNow
    · exact counted
  have sameLength : hashId < (if cache.numEntries = cache.maxNumEntries
      then (addressCacheFlushExpired cache epochNow).2 else cache).addressCacheRoot.length := by
    split
    · rwa [(flushExpired_eq cache epochNow).2, length_map]
    · exact inside
  simp only [Source.Cache.insertNew]
  generalize (if cache.numEntries = cache.maxNumEntries
    then (addressCacheFlushExpired cache epochNow).2 else cache) = room at flushed sameLength ⊢
  split
  · exact flushed
  · next free =>
    split
    · exact flushed
    · exact flushed.push sameLength item free

/-- Changing an item in place while counting one more makes the counter wrong. -/
lemma Counted.not_insertAgain (env : InsertEnv) (inside : hashId < cache.addressCacheRoot.length)
    (position : Nat) (hostname : Bytes) (epochValidUntil : UInt32) :
    ¬Counted (insertAgain env cache hashId position hostname epochValidUntil).2 := by
  intro after
  have right := counted.entries
  have replaced := reachable_setBucket cache inside
    ((cache.bucket hashId).modify position (.refresh env hostname epochValidUntil))
  rw [length_modify] at replaced
  have wrong : (cache.numEntries + 1).toNat = reachable (cache.setBucket hashId
    ((cache.bucket hashId).modify position (.refresh env hostname epochValidUntil))) :=
    after.entries
  rw [UInt32.toNat_add, UInt32.toNat_one] at wrong
  omega

/-- An insertion keeps the counter right exactly if the address is not cached. -/
lemma Counted.insert_iff (env : InsertEnv) (ipAddr : IpAddr)
    (hostname : Bytes) (epochNow ttl : UInt32) :
    Counted (addressCacheInsert env cache ipAddr (some hostname) epochNow ttl).2 ↔
      cached cache ipAddr (if epochNow = 0 then env.time else epochNow) = false := by
  simp only [addressCacheInsert]
  generalize (if epochNow = 0 then env.time else epochNow) = now
  have looked := counted.find ipAddr now
  have sameLength : cache.hashId ipAddr <
      (addressCacheFind cache ipAddr now).2.addressCacheRoot.length :=
    lt_of_lt_of_eq (hashId_lt cache ipAddr) (length_set).symm
  rw [← addressCacheFind_none]
  generalize addressCacheFind cache ipAddr now = result at looked sameLength ⊢
  obtain ⟨found, after⟩ := result
  cases found with
  | none => exact iff_of_true (looked.insertNew env sameLength _ now) rfl
  | some position =>
    exact iff_of_false (looked.not_insertAgain env sameLength position hostname _)
      (some_ne_none position)

omit counted

lemma addressStep_counted_iff {cache : AddressCache} (call : AddressCall)
    (counted : Counted cache) : Counted (addressStep cache call) ↔ Fresh cache call := by
  cases call with
  | insert env ipAddr hostname epochNow ttl =>
    cases hostname with
    | none => exact iff_of_true counted (.inl rfl)
    | some hostname =>
      rw [Fresh, or_iff_right (some_ne_none hostname)]
      exact counted.insert_iff env ipAddr hostname epochNow ttl
  | find ipAddr epochNow => exact iff_of_true (counted.find ipAddr epochNow) trivial
  | flushExpired epochNow => exact iff_of_true (counted.flushExpired epochNow) trivial

lemma counted_init : Counted (initAddressCache maxNumEntries) := by
  constructor
  · simp [initAddressCache, reachable]
  · exact UInt32.le_iff_toNat_le.mpr (Nat.zero_le _)

/-- The counter is right and within the limit throughout a sequence of calls
exactly if none of them inserts an address that is cached at that moment. -/
theorem address_cache_counted_iff (maxNumEntries : UInt32) (calls : List AddressCall) :
    Throughout addressStep Counted (initAddressCache maxNumEntries) calls ↔
      EveryStep addressStep Fresh (initAddressCache maxNumEntries)
        calls :=
  @throughout_iff_everyStep _ _ _ _ _ _ (fun _ => True) _ ⟨trivial, counted_init⟩
    (fun _ _ _ => trivial) fun _ call _ => addressStep_counted_iff call

/-- Two insertions of one address into a cache of size 1: the counter is 2, with
one item in the buckets. -/
theorem address_cache_counts_twice :
    let env : InsertEnv := ⟨1, true, true⟩
    let call : AddressCall := .insert env (Vector.replicate 16 0) (some [97]) 10 60
    let cache := run addressStep (initAddressCache 1) [call, call]
    cache.numEntries = 2 ∧ reachable cache = 1 ∧ cache.maxNumEntries = 1 := by
  decide +kernel

/-- The number of the items that a lookup takes for expired, and the buckets
without them. -/
def withoutExpired (cache : AddressCache) (epochNow : UInt32) :
    UInt32 × List (List AddressCacheItem) :=
  (UInt32.ofNat (cache.addressCacheRoot.map (·.countP (·.expired epochNow))).sum,
    cache.addressCacheRoot.map (·.filter (!·.expired epochNow)))

/-- A flush and a lookup agree on an item only at the moment it expires. -/
lemma expired_eq_iff (item : AddressCacheItem) (epochNow : UInt32) :
    item.expired epochNow = decide (epochNow < item.expireEpoch) ↔
      item.expireEpoch = epochNow := by
  unfold AddressCacheItem.expired
  rw [Bool.eq_iff_iff]
  simp only [Bool.and_eq_true, bne_iff_ne, ne_eq, decide_eq_true_eq, UInt32.lt_iff_toNat_lt,
    ← UInt32.toNat_inj, UInt32.toNat_zero]
  omega

/-- A flush removes the expired items, no others, and counts them exactly if every
item expires at that very moment. -/
theorem flush_expired_iff (cache : AddressCache) (epochNow : UInt32) :
    ((addressCacheFlushExpired cache epochNow).1,
        (addressCacheFlushExpired cache epochNow).2.addressCacheRoot) =
        withoutExpired cache epochNow ↔
      ∀ bucket ∈ cache.addressCacheRoot, ∀ item ∈ bucket, item.expireEpoch = epochNow := by
  obtain ⟨purged, root⟩ := flushExpired_eq cache epochNow
  rw [purged, root, withoutExpired, Prod.mk.injEq]
  constructor
  · intro same bucket member item inside
    have left := map_inj_left.mp same.2 bucket member
    have agree : item ∈ bucket.filter (fun item => !decide (epochNow < item.expireEpoch)) ↔
        item ∈ bucket.filter (!·.expired epochNow) := by rw [left]
    simp only [mem_filter, inside, true_and] at agree
    exact (expired_eq_iff item epochNow).mp (Bool.not_inj (Bool.eq_iff_iff.mpr agree.symm))
  · intro now
    have agree (bucket) (member : bucket ∈ cache.addressCacheRoot) (item) (inside : item ∈ bucket) :
        decide (epochNow < item.expireEpoch) = item.expired epochNow :=
      ((expired_eq_iff item epochNow).mpr (now bucket member item inside)).symm
    constructor
    · congr 2
      refine map_congr_left fun bucket member => countP_congr fun item inside => ?_
      rw [agree bucket member item inside]
    · refine map_congr_left fun bucket member => filter_congr fun item inside => ?_
      rw [agree bucket member item inside]

/-- An item that expires at 70 is purged at 20 and kept at 100. -/
theorem flush_purges_unexpired :
    let item : AddressCacheItem := ⟨Vector.replicate 16 0, [97], 70⟩
    let cache : AddressCache := ⟨1, 1, [[item]], one_pos⟩
    (addressCacheFlushExpired cache 20).1 = 1 ∧ withoutExpired cache 20 = (0, [[item]]) ∧
      (addressCacheFlushExpired cache 100).1 = 0 ∧ withoutExpired cache 100 = (1, [[]]) := by
  decide +kernel

end Ndpi.Guarantees.AddressCache
