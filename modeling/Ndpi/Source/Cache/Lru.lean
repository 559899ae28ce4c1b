import Ndpi.Lib.Words

/-!
# The LRU cache

`ndpi_cache.c:38-66,103-141`, `ndpi_hash.c:37-44` and `ndpi_typedefs.h:792-814`: a
direct-mapped cache of 16-bit values under 64-bit keys. The lock, taken only when
the cache is shared, is left out.
-/
namespace Ndpi.Source.Cache
open Lib

/-- `ndpi_quick_hash`. -/
def quickHash (bytes : Bytes) : UInt32 :=
  bytes.foldl (fun hash byte => ((hash <<< 5) + hash) + byte.toUInt32) 5381

/-- `ndpi_quick_hash` of a key, whose bytes lie in memory in little-endian order. -/
def keyHash (key : UInt64) : UInt32 := quickHash (beBytes 8 key.toNat).reverse

structure LruCacheEntry where
  key : UInt64
  isFull : Bool
  value : UInt16
  timestamp : UInt32
  deriving DecidableEq, Repr

structure LruCacheStats where
  nInsert : UInt64
  nSearch : UInt64
  nFound : UInt64
  deriving DecidableEq, Repr

structure LruCache (numEntries : UInt32) where
  positive : 0 < numEntries.toNat
  ttl : UInt32
  stats : LruCacheStats
  entries : Vector LruCacheEntry numEntries.toNat

/-- `ndpi_lru_cache_init`, with its allocations granted; the field for the time
to live has 31 bits. -/
def lruCacheInit (numEntries : UInt32) (positive : 0 < numEntries.toNat) (ttl : UInt32) :
    LruCache numEntries where
  positive := positive
  ttl := ttl &&& 0x7FFFFFFF
  stats := ⟨0, 0, 0⟩
  entries := Vector.replicate numEntries.toNat ⟨0, false, 0, 0⟩

/-- A call on the cache. -/
inductive LruCall where
  | add (key : UInt64) (value : UInt16) (nowSec : UInt32)
  | find (key : UInt64) (cleanKeyWhenFound : Bool) (nowSec : UInt32)
  deriving DecidableEq, Repr

/-- A call that was made, with the answer it got. -/
inductive LruEvent where
  | added (key : UInt64) (value : UInt16) (nowSec : UInt32)
  | searched (key : UInt64) (cleanKeyWhenFound : Bool) (nowSec : UInt32) (found : Option UInt16)
  deriving DecidableEq, Repr

variable {numEntries : UInt32} (hash : UInt64 → UInt32) (c : LruCache numEntries)

def LruCache.slot (key : UInt64) : Fin numEntries.toNat :=
  ⟨(hash key).toNat % numEntries.toNat, Nat.mod_lt _ c.positive⟩

def LruCache.setEntry (slot : Fin numEntries.toNat) (entry : LruCacheEntry) : LruCache numEntries :=
  { c with entries := c.entries.set slot.1 entry slot.2 }

/-- `ndpi_lru_find_cache`: `*value` when it returns 1. -/
def lruFindCache (key : UInt64) (cleanKeyWhenFound : Bool) (nowSec : UInt32) :
    Option UInt16 × LruCache numEntries :=
  let slot := c.slot hash key
  let entry := c.entries[slot.1]
  let searched := { c with stats.nSearch := c.stats.nSearch + 1 }
  if entry.isFull = true ∧ entry.key = key ∧ entry.timestamp ≤ nowSec ∧
      (c.ttl = 0 ∨ nowSec - entry.timestamp ≤ c.ttl) then
    let cleaned :=
      if cleanKeyWhenFound then searched.setEntry slot { entry with isFull := false }
      else searched
    (some entry.value, { cleaned with stats.nFound := cleaned.stats.nFound + 1 })
  else (none, searched)

/-- `ndpi_lru_add_to_cache`. -/
def lruAddToCache (key : UInt64) (value : UInt16) (nowSec : UInt32) : LruCache numEntries :=
  { c.setEntry (c.slot hash key) ⟨key, true, value, nowSec⟩ with
    stats.nInsert := c.stats.nInsert + 1 }

/-- One call on a cache and the log of the calls before it. -/
def lruStep (state : LruCache numEntries × List LruEvent) :
    LruCall → LruCache numEntries × List LruEvent
  | .add key value nowSec =>
    (lruAddToCache hash state.1 key value nowSec, state.2 ++ [.added key value nowSec])
  | .find key clean nowSec =>
    let (found, c) := lruFindCache hash state.1 key clean nowSec
    (c, state.2 ++ [.searched key clean nowSec found])

def lruRun (calls : List LruCall) : LruCache numEntries × List LruEvent :=
  calls.foldl (lruStep hash) (c, [])

end Ndpi.Source.Cache
