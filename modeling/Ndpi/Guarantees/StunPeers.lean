import Ndpi.Guarantees.LruCache
import Ndpi.Source.Stun.Endpoints

/-!
# Peers in the STUN cache

The peer of an XOR-PEER-ADDRESS attribute is stored under a key of its own construction.
For IPv4 it is the key of the flows with this endpoint. For IPv6 another hash is used, it
is shifted further, and the bytes of the port are swapped.
-/
namespace Ndpi.Guarantees.StunPeers
open Lib Source.Cache Source.Stun Guarantees.LruCache List Option Scan

/-- The flow has the endpoint as its server if `rev`, else as its client. -/
def HasEnd (ends : FlowEnds) (rev : Bool) (e : AddressPort) : Prop :=
  (match ends.addresses, e.address with
    | .v4 client server, .v4 ip => (if rev then server else client) = ip
    | .v6 client server, .v6 ip => (if rev then server else client) = ip
    | _, _ => False) ∧
  (if rev then ends.sPort else ends.cPort) = htons e.port

/-- The endpoints for which both keys are the same. -/
def Agrees (e : AddressPort) : Prop :=
  match e.address with
  | .v4 _ => True
  | .v6 ip =>
    (quickHash64 ip.bytes).toNat % 281474976710656 = (quickHash ip.bytes).toNat * 65536 ∧
      htons e.port = e.port

lemma htons_toNat (x : UInt16) : (htons x).toNat = x.toNat % 256 * 256 + x.toNat / 256 := by
  have small := x.toNat_lt
  rw [htons, UInt16.toNat_ofNat']
  omega

lemma htons_htons (x : UInt16) : htons (htons x) = x := by
  have small := x.toNat_lt
  apply UInt16.toNat_inj.mp
  rw [htons_toNat, htons_toNat]
  omega

/-- A number above a port. -/
lemma shift16_or_toNat (h : UInt64) (port : UInt16) :
    ((h <<< 16) ||| port.toUInt64).toNat = h.toNat % 281474976710656 * 65536 + port.toNat := by
  have small := port.toNat_lt
  have shifted : (h <<< 16).toNat = (h.toNat % 281474976710656) <<< 16 := by
    rw [UInt64.toNat_shiftLeft, Nat.shiftLeft_eq, Nat.shiftLeft_eq]
    show h.toNat * 65536 % 18446744073709551616 = _
    omega
  rw [UInt64.toNat_or, shifted, UInt16.toNat_toUInt64,
    ← Nat.shiftLeft_add_eq_or_of_lt (by omega : port.toNat < 2 ^ 16), Nat.shiftLeft_eq]

lemma shift32_or_toNat (h : UInt32) (port : UInt16) :
    ((h.toUInt64 <<< 32) ||| port.toUInt64).toNat = h.toNat * 4294967296 + port.toNat := by
  have small := port.toNat_lt
  have narrow := h.toNat_lt
  have shifted : (h.toUInt64 <<< 32).toNat = h.toNat <<< 32 := by
    rw [UInt64.toNat_shiftLeft, UInt32.toNat_toUInt64, Nat.shiftLeft_eq, Nat.shiftLeft_eq]
    show h.toNat * 4294967296 % 18446744073709551616 = _
    omega
  rw [UInt64.toNat_or, shifted, UInt16.toNat_toUInt64,
    ← Nat.shiftLeft_add_eq_or_of_lt (by omega : port.toNat < 2 ^ 32), Nat.shiftLeft_eq]

lemma key6_eq_iff (ip : Ipv6) (port : UInt16) :
    (quickHash64 ip.bytes <<< 16) ||| (htons (htons port)).toUInt64 =
        getStunLruKeyRaw6 ip.bytes port ↔
      Agrees ⟨port, .v6 ip⟩ := by
  have first := port.toNat_lt
  have second := (htons port).toNat_lt
  unfold getStunLruKeyRaw6 Agrees
  rw [htons_htons, ← UInt64.toNat_inj, shift16_or_toNat, shift32_or_toNat, ← UInt16.toNat_inj]
  dsimp only
  omega

lemma getStunLruKey_eq_iff (has : HasEnd ends rev e) :
    getStunLruKey ends rev = peerKey e ↔ Agrees e := by
  obtain ⟨addresses, cPort, sPort⟩ := ends
  obtain ⟨port, address⟩ := e
  obtain ⟨side, ports⟩ := has
  cases addresses with
  | v4 client server =>
    cases address with
    | v4 ip =>
      refine iff_of_true ?_ trivial
      cases rev with
      | true =>
        obtain rfl : server = ip := side
        obtain rfl : sPort = htons port := ports
        unfold getStunLruKey
        exact if_pos rfl
      | false =>
        obtain rfl : client = ip := side
        obtain rfl : cPort = htons port := ports
        unfold getStunLruKey
        exact if_neg Bool.false_ne_true
    | v6 ip => exact side.elim
  | v6 client server =>
    cases address with
    | v4 ip => exact side.elim
    | v6 ip =>
      rw [← key6_eq_iff]
      unfold getStunLruKey peerKey
      cases rev with
      | true =>
        obtain rfl : server = ip := side
        obtain rfl : sPort = htons port := ports
        exact Iff.rfl
      | false =>
        obtain rfl : client = ip := side
        obtain rfl : cPort = htons port := ports
        exact Iff.rfl

section

variable {t : Transaction} {p rest : Bytes} {base off payloadLength : Nat}

/-- The length of the value of an address attribute. -/
def valueLen (e : AddressPort) : Nat :=
  match e.address with
  | .v4 _ => 8
  | .v6 _ => 20

/-- The XOR-PEER-ADDRESS attribute for an endpoint. -/
def peerAttribute (t : Transaction) (e : AddressPort) : Bytes :=
  let port := beBytes 2 (e.port ^^^ (t.magicCookie >>> 16).toUInt16).toNat
  match e.address with
  | .v4 ip => [0x00, 0x12, 0, 8, 0, 0x01] ++ port ++ wordBytes (ip ^^^ htonl t.magicCookie)
  | .v6 ip => [0x00, 0x12, 0, 20, 0, 0x02] ++ port ++ (wordBytes (ip.w0 ^^^ htonl t.magicCookie) ++
      (wordBytes (ip.w1 ^^^ htonl t.id0) ++ (wordBytes (ip.w2 ^^^ htonl t.id1) ++
        wordBytes (ip.w3 ^^^ htonl t.id2))))

lemma byte_of_drop (here : p.drop offset = q) : p[offset + i]?.getD 0 = q[i]?.getD 0 := by
  rw [← here, getElem?_drop]

lemma loadWord_of_drop (here : p.drop offset = wordBytes w ++ rest) :
    (loadWord p offset).val = some w := by
  have b0 := byte_of_drop (i := 0) here
  have b1 := byte_of_drop (i := 1) here
  have b2 := byte_of_drop (i := 2) here
  have b3 := byte_of_drop (i := 3) here
  have whole : (loadWord p offset).val = some (UInt32.ofNat (beNat [p[offset + 3]?.getD 0,
      p[offset + 2]?.getD 0, p[offset + 1]?.getD 0, p[offset + 0]?.getD 0])) := rfl
  have digits : [(wordBytes w ++ rest)[3]?.getD 0, (wordBytes w ++ rest)[2]?.getD 0,
      (wordBytes w ++ rest)[1]?.getD 0, (wordBytes w ++ rest)[0]?.getD 0] =
        beBytes 4 w.toNat := rfl
  rw [whole, b0, b1, b2, b3, digits, beNat_beBytes_of_lt w.toNat_lt, UInt32.ofNat_toNat]

lemma be16_of_drop (small : n < 65536) (here : p.drop offset = beBytes 2 n ++ rest) :
    (Scan.be16 p offset).val = some n := by
  have high := byte_of_drop (i := 0) here
  have low := byte_of_drop (i := 1) here
  have whole : (Scan.be16 p offset).val =
      some ((p[offset + 0]?.getD 0).toNat * 256 + (p[offset + 1]?.getD 0).toNat) := rfl
  have digits : ((beBytes 2 n ++ rest)[0]?.getD 0).toNat * 256 +
      ((beBytes 2 n ++ rest)[1]?.getD 0).toNat =
        (UInt8.ofNat (n / 256)).toNat * 256 + (UInt8.ofNat n).toNat := rfl
  rw [whole, high, low, digits, be16_digits small]

/-- The attribute is decoded to the endpoint. -/
lemma decodeXorAddress_peer (here : p.drop (base + off) = peerAttribute t e ++ rest)
    (fits : off + 4 + valueLen e ≤ payloadLength) :
    (decodeXorAddress p base payloadLength off (valueLen e) t).val = some (some e) := by
  obtain ⟨port, address⟩ := e
  have masked : ∀ k : UInt16, UInt16.ofNat (port ^^^ k).toNat ^^^ k = port := by
    intro k
    rw [UInt16.ofNat_toNat, UInt16.xor_assoc, UInt16.xor_self, UInt16.xor_zero]
  have undone : ∀ w k : UInt32, w ^^^ k ^^^ k = w := by
    intro w k
    rw [UInt32.xor_assoc, UInt32.xor_self, UInt32.xor_zero]
  have later : ∀ n, p.drop (base + off + n) = (peerAttribute t ⟨port, address⟩ ++ rest).drop n := by
    intro n
    rw [← drop_drop, here]
  unfold decodeXorAddress
  cases address with
  | v4 ip =>
    have family : p[base + off + 5]?.getD 0 = 1 := (byte_of_drop (i := 5) here).trans rfl
    rw [if_pos ⟨fits, .inl rfl⟩, bind_val, byte_val, family, bind_some,
      if_pos ⟨rfl, rfl⟩, bind_val, be16_of_drop (UInt16.toNat_lt _) (later 6),
      bind_some, bind_val, loadWord_of_drop (later 8), bind_some,
      pure_val, masked, undone]
  | v6 ip =>
    have family : p[base + off + 5]?.getD 0 = 2 := (byte_of_drop (i := 5) here).trans rfl
    rw [if_pos ⟨fits, .inr rfl⟩, bind_val, byte_val, family, bind_some,
      if_neg (fun both => absurd both.1 (by decide)), if_pos ⟨rfl, rfl⟩, bind_val,
      be16_of_drop (UInt16.toNat_lt _) (later 6), bind_some, bind_val,
      loadWord_of_drop (later 8), bind_some, bind_val, loadWord_of_drop (later 12),
      bind_some, bind_val, loadWord_of_drop (later 16), bind_some,
      bind_val, loadWord_of_drop (later 20), bind_some, pure_val, masked,
      undone, undone, undone, undone]

end

section

variable {numEntries : UInt32} {cache : LruCache numEntries} {key : UInt64} {value : UInt16}
  {nowSec later : UInt32}

/-- What was just stored is found within its lifetime. -/
lemma lruFindCache_added (ordered : nowSec ≤ later)
    (fresh : cache.ttl = 0 ∨ later - nowSec ≤ cache.ttl) (clean : Bool) :
    (lruFindCache keyHash (lruAddToCache keyHash cache key value nowSec) key clean later).1 =
      some value := by
  rw [lruFindCache_answer]
  refine ⟨nowSec, ?_, ordered, fresh⟩
  apply (lruAddToCache_slots keyHash cache key value nowSec (cache.slot keyHash key)).trans
  rw [slotEffect, if_pos rfl, getD_some]

/-- A lookup that finds nothing leaves the answers to others as they are. -/
lemma lruFindCache_after_miss (miss : (lruFindCache keyHash cache missed false later).1 = none) :
    (lruFindCache keyHash (lruFindCache keyHash cache missed false later).2 key false later).1 =
      (lruFindCache keyHash cache key false later).1 := by
  have same : (lruFindCache keyHash cache missed false later).2 =
      { cache with stats.nSearch := cache.stats.nSearch + 1 } := by
    unfold lruFindCache at miss ⊢
    dsimp only at miss ⊢
    split at miss
    · cases miss
    · next absent => rw [if_neg absent]
  rw [same]
  apply Option.ext
  intro found
  -- the answer depends on the entries and the lifetime only
  rw [lruFindCache_answer, lruFindCache_answer]
  exact Iff.rfl

/-- A peer stored under the key of an end of the flow is found, unless the client is in the
cache before its server. -/
lemma searchIntoCache_added (same : getStunLruKey ends rev = key)
    (ordered : nowSec ≤ later) (fresh : cache.ttl = 0 ∨ later - nowSec ≤ cache.ttl)
    (first : rev = true → (lruFindCache keyHash (lruAddToCache keyHash cache key value nowSec)
      (getStunLruKey ends false) false later).1 = none) :
    (searchIntoCache (some (lruAddToCache keyHash cache key value nowSec)) ends later).1 =
      value := by
  have found := @lruFindCache_added _ cache key value nowSec later ordered fresh false
  unfold searchIntoCache
  cases rev with
  | false =>
    rw [same]
    dsimp only
    split
    · next proto _ answer =>
      rw [answer] at found
      exact Option.some.inj found
    · next answer =>
      rw [answer] at found
      cases found
  | true =>
    have miss := first rfl
    have second := @lruFindCache_after_miss _ _ key later _ miss
    rw [found] at second
    dsimp only
    split
    · next answer =>
      rw [answer] at miss
      cases miss
    · next after answer =>
      rw [answer, ← same] at second
      split
      · next proto _ answer' =>
        rw [answer'] at second
        exact Option.some.inj second
      · next answer' =>
        rw [answer'] at second
        cases second

end

/-- An announced peer is decoded to its endpoint. The key it is stored under is that of the
flows with this endpoint exactly if the endpoint is an IPv4 one, or both IPv6 keys happen to
agree, and then these flows find it. -/
theorem announced_peer_found_iff {numEntries : UInt32} (cache : LruCache numEntries)
    (e : AddressPort) (t : Transaction) (p rest : Bytes) (base off payloadLength : Nat)
    (stack0 stack1 : UInt16) (nowSec later : UInt32) (ends : FlowEnds) (rev : Bool)
    (here : p.drop (base + off) = peerAttribute t e ++ rest)
    (fits : off + 4 + valueLen e ≤ payloadLength)
    (real : isSubclassificationReal stack0 stack1 = true) (has : HasEnd ends rev e)
    (ordered : nowSec ≤ later) (fresh : cache.ttl = 0 ∨ later - nowSec ≤ cache.ttl) :
    (decodeXorAddress p base payloadLength off (valueLen e) t).val = some (some e) ∧
    (getStunLruKey ends rev = peerKey e ↔ Agrees e) ∧
    (Agrees e → ∀ announced, announcePeer (some cache) stack0 stack1 nowSec e = some announced →
      (rev = true →
        (lruFindCache keyHash announced (getStunLruKey ends false) false later).1 = none) →
      (searchIntoCache (some announced) ends later).1 = stack0) := by
  refine ⟨decodeXorAddress_peer here fits, getStunLruKey_eq_iff has, ?_⟩
  intro agrees announced stored first
  rw [announcePeer, if_pos real, map_some] at stored
  obtain rfl := Option.some.inj stored
  exact searchIntoCache_added ((getStunLruKey_eq_iff has).mpr agrees) ordered fresh first

lemma sixteen_positive : 0 < (16 : UInt32).toNat := by decide

def emptyCache : LruCache 16 := lruCacheInit 16 sixteen_positive 300

def sampleTransaction : Transaction := ⟨0x2112A442, 1, 2, 3⟩

/-- 192.0.2.1, port 3478. -/
def peer4 : AddressPort := ⟨3478, .v4 0x010200C0⟩

/-- 2001:db8::1, port 3478. -/
def peer6 : AddressPort := ⟨3478, .v6 ⟨0xB80D0120, 0, 0, 0x01000000⟩⟩

/-- The flows of these clients with the same address as their server. -/
def ends4 : FlowEnds := ⟨.v4 0x010200C0 0x020200C0, htons 3478, htons 443⟩

def ends6 : FlowEnds :=
  ⟨.v6 ⟨0xB80D0120, 0, 0, 0x01000000⟩ ⟨0xB80D0120, 0, 0, 0x02000000⟩, htons 3478, htons 443⟩

theorem peer4_found :
    (searchIntoCache (announcePeer (some emptyCache) Protocol.whatsAppCall Protocol.stun 100 peer4)
      ends4 200).1 = Protocol.whatsAppCall :=
  (announced_peer_found_iff emptyCache peer4 sampleTransaction
    (peerAttribute sampleTransaction peer4) [] 0 0 12 Protocol.whatsAppCall Protocol.stun 100 200
    ends4 false (append_nil _).symm (by decide) (by decide) ⟨rfl, rfl⟩ (by decide)
    (.inr (by decide))).2.2 trivial _ rfl (fun server => nomatch server)

/-- The IPv6 peer is stored under a key that no flow with this endpoint looks for. -/
theorem peer6_not_found :
    (decodeXorAddress (peerAttribute sampleTransaction peer6) 0 24 0 20 sampleTransaction).val =
        some (some peer6) ∧
      getStunLruKey ends6 false ≠ peerKey peer6 ∧
      (announcePeer (some emptyCache) Protocol.whatsAppCall Protocol.stun 100 peer6).map
        (fun announced => (searchIntoCache (some announced) ends6 200).1) =
          some Protocol.unknown := by
  decide +kernel

end Ndpi.Guarantees.StunPeers
