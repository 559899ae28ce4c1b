import Ndpi.Lib.Scan
import Ndpi.Source.Cache.Lru

/-!
# STUN endpoints and their cache

`protocols/stun.c:78-100,133-352,1122-1146` and `ndpi_hash.c:50-61`: the address
attributes of STUN messages and the cache of the endpoints with a known application. The
host is little-endian, and its `char` is signed.
-/
namespace Ndpi.Source.Stun
open Lib Source.Cache

namespace Protocol

-- the values of `ndpi_protocol_ids.h` that the dissector uses
def unknown : UInt16 := 0
def dtls : UInt16 := 30
def msTeamsCall : UInt16 := 38
def whatsAppCall : UInt16 := 45
def stun : UInt16 := 78
def rtp : UInt16 := 87
def rtcp : UInt16 := 165
def telegram : UInt16 := 185
def zoom : UInt16 := 189
def facebookVoip : UInt16 := 268
def signalVoip : UInt16 := 269
def srtp : UInt16 := 338
def telegramVoip : UInt16 := 355
def googleCall : UInt16 := 404
def viberVoip : UInt16 := 414

end Protocol

/-- `htons` and `ntohs`. -/
def htons (x : UInt16) : UInt16 := UInt16.ofNat (x.toNat % 256 * 256 + x.toNat / 256)

/-- The bytes of a word in memory. -/
def wordBytes (w : UInt32) : Bytes := (beBytes 4 w.toNat).reverse

/-- `htonl` and `ntohl`. -/
def htonl (x : UInt32) : UInt32 := UInt32.ofNat (beNat (wordBytes x))

/-- A word as it is loaded from memory. -/
def loadWord (p : Bytes) (offset : Nat) : Scan UInt32 := do
  let b0 ← Scan.byte p offset
  let b1 ← Scan.byte p (offset + 1)
  let b2 ← Scan.byte p (offset + 2)
  let b3 ← Scan.byte p (offset + 3)
  pure (UInt32.ofNat (beNat [b3, b2, b1, b0]))

/-- The words of an IPv6 address. -/
structure Ipv6 where
  w0 : UInt32
  w1 : UInt32
  w2 : UInt32
  w3 : UInt32
  deriving DecidableEq, Repr

def Ipv6.bytes (ip : Ipv6) : Bytes :=
  wordBytes ip.w0 ++ wordBytes ip.w1 ++ wordBytes ip.w2 ++ wordBytes ip.w3

/-- An address in network order. -/
inductive IpAddress where
  | v4 (ip : UInt32)
  | v6 (ip : Ipv6)
  deriving DecidableEq, Repr

/-- `ndpi_address_port`; the port is in host order. -/
structure AddressPort where
  port : UInt16
  address : IpAddress
  deriving DecidableEq, Repr

/-- `c_address` and `s_address`, which are of one kind. -/
inductive FlowAddresses where
  | v4 (client server : UInt32)
  | v6 (client server : Ipv6)
  deriving DecidableEq, Repr

/-- The ends of a flow; the ports are in network order. -/
structure FlowEnds where
  addresses : FlowAddresses
  cPort : UInt16
  sPort : UInt16
  deriving DecidableEq, Repr

/-- `ndpi_quick_hash64`. -/
def quickHash64 (bytes : Bytes) : UInt64 :=
  bytes.foldl (fun h byte => h * 31 + byte.toInt8.toInt64.toUInt64) 177 ^^^
    UInt64.ofNat bytes.length

def getStunLruKey (ends : FlowEnds) (rev : Bool) : UInt64 :=
  match ends.addresses with
  | .v6 client server =>
    if rev then (quickHash64 server.bytes <<< 16) ||| (htons ends.sPort).toUInt64
    else (quickHash64 client.bytes <<< 16) ||| (htons ends.cPort).toUInt64
  | .v4 client server =>
    if rev then (server.toUInt64 <<< 32) ||| ends.sPort.toUInt64
    else (client.toUInt64 <<< 32) ||| ends.cPort.toUInt64

def getStunLruKeyRaw4 (ip : UInt32) (portHostOrder : UInt16) : UInt64 :=
  (ip.toUInt64 <<< 32) ||| (htons portHostOrder).toUInt64

def getStunLruKeyRaw6 (ip : Bytes) (portHostOrder : UInt16) : UInt64 :=
  ((quickHash ip).toUInt64 <<< 32) ||| (htons portHostOrder).toUInt64

def isSubclassificationRealByProto (proto : UInt16) : Bool :=
  !(proto = Protocol.unknown || proto = Protocol.stun || proto = Protocol.rtp ||
    proto = Protocol.rtcp || proto = Protocol.srtp || proto = Protocol.dtls ||
    proto = Protocol.telegram)

/-- `is_subclassification_real`, of the two places of `detected_protocol_stack`. -/
def isSubclassificationReal (stack0 stack1 : UInt16) : Bool :=
  if stack1 = Protocol.unknown then false else isSubclassificationRealByProto stack0

section

variable {numEntries : UInt32}

/-- `search_into_cache`, where the protocol is 0 if nothing is found. -/
def searchIntoCache (cache : Option (LruCache numEntries)) (ends : FlowEnds) (nowSec : UInt32) :
    UInt16 × Option (LruCache numEntries) :=
  match cache with
  | none => (Protocol.unknown, none)
  | some cache =>
    match lruFindCache keyHash cache (getStunLruKey ends false) false nowSec with
    | (some proto, cache) => (proto, some cache)
    | (none, cache) =>
      match lruFindCache keyHash cache (getStunLruKey ends true) false nowSec with
      | (some proto, cache) => (proto, some cache)
      | (none, cache) => (Protocol.unknown, some cache)

/-- `add_to_cache`. -/
def addToCache (cache : Option (LruCache numEntries)) (ends : FlowEnds) (appProto : UInt16)
    (nowSec : UInt32) : Option (LruCache numEntries) :=
  cache.map fun cache =>
    let cache := lruAddToCache keyHash cache (getStunLruKey ends false) appProto nowSec
    lruAddToCache keyHash cache (getStunLruKey ends true) appProto nowSec

end

section

/-- What is read of the header of a STUN message for its attributes. -/
structure Transaction where
  magicCookie : UInt32
  id0 : UInt32
  id1 : UInt32
  id2 : UInt32
  deriving DecidableEq, Repr

variable (p : Bytes) (base payloadLength off realLen : Nat)

/-- The address that `parse_ip_port_attribute` finds in the attribute at `off`; the payload
begins at `base`. -/
def decodeAddress : Scan (Option AddressPort) := do
  if off + 4 + realLen ≤ payloadLength ∧ (realLen = 8 ∨ realLen = 20) then
    let protocolFamily ← Scan.byte p (base + off + 5)
    if protocolFamily = 0x01 ∧ realLen = 8 then
      let port ← Scan.be16 p (base + off + 6)
      let ip ← loadWord p (base + off + 8)
      pure (some ⟨UInt16.ofNat port, .v4 ip⟩)
    else if protocolFamily = 0x02 ∧ realLen = 20 then
      let port ← Scan.be16 p (base + off + 6)
      let w0 ← loadWord p (base + off + 8)
      let w1 ← loadWord p (base + off + 12)
      let w2 ← loadWord p (base + off + 16)
      let w3 ← loadWord p (base + off + 20)
      pure (some ⟨UInt16.ofNat port, .v6 ⟨w0, w1, w2, w3⟩⟩)
    else pure none
  else pure none

/-- The same in `parse_xor_ip_port_attribute`. -/
def decodeXorAddress (t : Transaction) : Scan (Option AddressPort) := do
  if off + 4 + realLen ≤ payloadLength ∧ (realLen = 8 ∨ realLen = 20) then
    let protocolFamily ← Scan.byte p (base + off + 5)
    if protocolFamily = 0x01 ∧ realLen = 8 then
      let port ← Scan.be16 p (base + off + 6)
      let ip ← loadWord p (base + off + 8)
      pure (some ⟨UInt16.ofNat port ^^^ (t.magicCookie >>> 16).toUInt16,
        .v4 (ip ^^^ htonl t.magicCookie)⟩)
    else if protocolFamily = 0x02 ∧ realLen = 20 then
      let port ← Scan.be16 p (base + off + 6)
      let w0 ← loadWord p (base + off + 8)
      let w1 ← loadWord p (base + off + 12)
      let w2 ← loadWord p (base + off + 16)
      let w3 ← loadWord p (base + off + 20)
      pure (some ⟨UInt16.ofNat port ^^^ (t.magicCookie >>> 16).toUInt16,
        .v6 ⟨w0 ^^^ htonl t.magicCookie, w1 ^^^ htonl t.id0, w2 ^^^ htonl t.id1,
          w3 ^^^ htonl t.id2⟩⟩)
    else pure none
  else pure none

end

/-- The key under which a peer is stored. -/
def peerKey (peer : AddressPort) : UInt64 :=
  match peer.address with
  | .v4 ip => getStunLruKeyRaw4 ip peer.port
  | .v6 ip => getStunLruKeyRaw6 ip.bytes peer.port

/-- `*ap` after an address was found: only the first one of the flow is kept. -/
def AddressPort.keepFirst (ap found : AddressPort) : AddressPort :=
  if ap.port = 0 then found else ap

/-- What `parse_xor_ip_port_attribute` does with the cache for a peer; `stack0` and `stack1`
are those of the flow. -/
def announcePeer {numEntries : UInt32} (cache : Option (LruCache numEntries))
    (stack0 stack1 : UInt16) (nowSec : UInt32) (peer : AddressPort) :
    Option (LruCache numEntries) :=
  if isSubclassificationReal stack0 stack1 then
    cache.map fun cache => lruAddToCache keyHash cache (peerKey peer) stack0 nowSec
  else cache

end Ndpi.Source.Stun
