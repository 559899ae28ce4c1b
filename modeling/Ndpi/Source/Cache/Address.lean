import Ndpi.Source.Cache.Lru

/-!
# The address cache

`ndpi_cache.c:221-236,270-405` and `ndpi_typedefs.h:2192-2203`: hostnames under
the addresses they resolve to, in buckets of linked lists with a counter kept by
hand. A pointer to an item is its position in its bucket.
-/
namespace Ndpi.Source.Cache
open Lib

/-- `ndpi_ip_addr_t`, compared and hashed as its sixteen bytes. -/
abbrev IpAddr := Vector UInt8 16

structure AddressCacheItem where
  addr : IpAddr
  hostname : Bytes
  expireEpoch : UInt32
  deriving DecidableEq

/-- `num_root_nodes` is the length of the array of buckets. -/
structure AddressCache where
  numEntries : UInt32
  maxNumEntries : UInt32
  addressCacheRoot : List (List AddressCacheItem)
  rooted : 0 < addressCacheRoot.length

def numDefaultRootNodes : Nat := 512

/-- `ndpi_init_address_cache`, with its allocations granted. -/
def initAddressCache (maxNumEntries : UInt32) : AddressCache where
  numEntries := 0
  maxNumEntries := maxNumEntries
  addressCacheRoot :=
    List.replicate (max 1 (min numDefaultRootNodes (maxNumEntries.toNat / 16))) []
  rooted := by
    rw [List.length_replicate]
    omega

/-- `ndpi_quick_hash(&ip_addr, sizeof(ip_addr)) % cache->num_root_nodes`. -/
def AddressCache.hashId (cache : AddressCache) (ipAddr : IpAddr) : Nat :=
  (quickHash ipAddr.toList).toNat % cache.addressCacheRoot.length

def AddressCache.bucket (cache : AddressCache) (hashId : Nat) : List AddressCacheItem :=
  cache.addressCacheRoot.getD hashId []

def AddressCache.setBucket (cache : AddressCache) (hashId : Nat) (items : List AddressCacheItem) :
    AddressCache :=
  { cache with
    addressCacheRoot := cache.addressCacheRoot.set hashId items
    rooted := by rw [List.length_set]; exact cache.rooted }

/-- The inner loop of `ndpi_address_cache_flush_expired`: `kept` is the bucket up to
`prev`, behind which `next` is linked when an item is purged. -/
def purgeLoop (epochNow : UInt32) (kept : List AddressCacheItem) (numPurged : Nat) :
    List AddressCacheItem → List AddressCacheItem × Nat
  | [] => (kept, numPurged)
  | root :: next =>
    if root.expireEpoch > epochNow then purgeLoop epochNow kept (numPurged + 1) next
    else purgeLoop epochNow (kept ++ [root]) numPurged next

/-- `ndpi_address_cache_flush_expired`, which purges the items that have not yet
expired. -/
def addressCacheFlushExpired (cache : AddressCache) (epochNow : UInt32) : UInt32 × AddressCache :=
  let purged := cache.addressCacheRoot.map (purgeLoop epochNow [] 0)
  let numPurged := UInt32.ofNat (purged.map (·.2)).sum
  (numPurged, { cache with
    numEntries := cache.numEntries - numPurged
    addressCacheRoot := purged.map (·.1)
    rooted := by rw [List.length_map, List.length_map]; exact cache.rooted })

/-- `(epoch_now != 0) && (root->expire_epoch < epoch_now)`. -/
def AddressCacheItem.expired (item : AddressCacheItem) (epochNow : UInt32) : Bool :=
  epochNow != 0 && item.expireEpoch < epochNow

/-- The loop of `ndpi_address_cache_find`: the position of the item in what is
left of the bucket, and the number of expired items removed on the way. -/
def findInBucket (ipAddr : IpAddr) (epochNow : UInt32) :
    List AddressCacheItem → Option Nat × List AddressCacheItem × Nat
  | [] => (none, [], 0)
  | root :: next =>
    if root.expired epochNow then
      let (found, left, removed) := findInBucket ipAddr epochNow next
      (found, left, removed + 1)
    else if root.addr = ipAddr then (some 0, root :: next, 0)
    else
      let (found, left, removed) := findInBucket ipAddr epochNow next
      (found.map (· + 1), root :: left, removed)

/-- `ndpi_address_cache_find`. -/
def addressCacheFind (cache : AddressCache) (ipAddr : IpAddr) (epochNow : UInt32) :
    Option Nat × AddressCache :=
  let hashId := cache.hashId ipAddr
  let (found, left, removed) := findInBucket ipAddr epochNow (cache.bucket hashId)
  (found, { cache.setBucket hashId left with
    numEntries := cache.numEntries - UInt32.ofNat removed })

/-- What an insertion gets from its environment: `time(NULL)`, and whether the
item and the copy of the hostname can be allocated. -/
structure InsertEnv where
  time : UInt32
  itemGranted : Bool
  hostnameGranted : Bool
  deriving DecidableEq, Repr

/-- `ndpi_address_cache_insert` from `if(ret == NULL)` on, for an address without
an item. -/
def insertNew (env : InsertEnv) (cache : AddressCache) (hashId : Nat) (item : AddressCacheItem)
    (epochNow : UInt32) : Bool × AddressCache :=
  let cache :=
    if cache.numEntries = cache.maxNumEntries then (addressCacheFlushExpired cache epochNow).2
    else cache
  if cache.numEntries = cache.maxNumEntries then (false, cache)
  else if env.itemGranted = false ∨ env.hostnameGranted = false then (false, cache)
  else
    (true, { cache.setBucket hashId (item :: cache.bucket hashId) with
      numEntries := cache.numEntries + 1 })

/-- The later expiry, and the hostname if it differs and can be copied. -/
def AddressCacheItem.refresh (env : InsertEnv) (hostname : Bytes) (epochValidUntil : UInt32)
    (item : AddressCacheItem) : AddressCacheItem where
  addr := item.addr
  hostname :=
    if item.hostname ≠ hostname ∧ env.hostnameGranted = true then hostname else item.hostname
  expireEpoch := max item.expireEpoch epochValidUntil

/-- The same for an address with an item, which is changed in place and counted
once more. -/
def insertAgain (env : InsertEnv) (cache : AddressCache) (hashId position : Nat)
    (hostname : Bytes) (epochValidUntil : UInt32) : Bool × AddressCache :=
  let items := (cache.bucket hashId).modify position (.refresh env hostname epochValidUntil)
  (true, { cache.setBucket hashId items with numEntries := cache.numEntries + 1 })

/-- `ndpi_address_cache_insert`. -/
def addressCacheInsert (env : InsertEnv) (cache : AddressCache) (ipAddr : IpAddr)
    (hostname : Option Bytes) (epochNow ttl : UInt32) : Bool × AddressCache :=
  let hashId := cache.hashId ipAddr
  match hostname with
  | none => (false, cache)
  | some hostname =>
    let epochNow := if epochNow = 0 then env.time else epochNow
    let (ret, cache) := addressCacheFind cache ipAddr epochNow
    let epochValidUntil := epochNow + ttl
    match ret with
    | none => insertNew env cache hashId ⟨ipAddr, hostname, epochValidUntil⟩ epochNow
    | some position => insertAgain env cache hashId position hostname epochValidUntil

inductive AddressCall where
  | insert (env : InsertEnv) (ipAddr : IpAddr) (hostname : Option Bytes) (epochNow ttl : UInt32)
  | find (ipAddr : IpAddr) (epochNow : UInt32)
  | flushExpired (epochNow : UInt32)
  deriving DecidableEq

def addressStep (cache : AddressCache) : AddressCall → AddressCache
  | .insert env ipAddr hostname epochNow ttl =>
    (addressCacheInsert env cache ipAddr hostname epochNow ttl).2
  | .find ipAddr epochNow => (addressCacheFind cache ipAddr epochNow).2
  | .flushExpired epochNow => (addressCacheFlushExpired cache epochNow).2

end Ndpi.Source.Cache
