import Ndpi.Lib.Unordered
import Ndpi.Lib.Words

/-!
# Community ids

`ndpi_community_id.c:77-163,180-368`: the buffer whose SHA-1 is the community id of a
flow. Numbers in network order are kept in memory by a little-endian machine.
-/
namespace Ndpi.Source.CommunityId
open Lib

/-- An IPv6 address, `struct ndpi_in6_addr`. -/
structure In6Addr where
  bytes : Bytes
  size : bytes.length = 16
  deriving DecidableEq

/-- The arguments of a flow hash that describe the flow. -/
structure Flow (Address : Type) where
  l4Proto : UInt8
  srcIp : Address
  dstIp : Address
  srcPort : UInt16
  dstPort : UInt16
  icmpType : UInt8
  icmpCode : UInt8
  deriving DecidableEq

def icmp : UInt8 := 1
def tcp : UInt8 := 6
def udp : UInt8 := 17
def icmpV6 : UInt8 := 58
def sctp : UInt8 := 132

/-- `ndpi_community_id_icmp_type_to_code_v4`, with `is_one_way`. -/
def icmpTypeToCodeV4 (icmpType icmpCode : UInt8) : UInt8 × Bool :=
  match icmpType.toNat with
  | 8 => (0, false)
  | 0 => (8, false)
  | 13 => (14, false)
  | 14 => (13, false)
  | 15 => (16, false)
  | 16 => (15, false)
  | 10 => (9, false)
  | 9 => (10, false)
  | 17 => (18, false)
  | 18 => (17, false)
  | _ => (icmpCode, true)

/-- `ndpi_community_id_icmp_type_to_code_v6`, with `is_one_way`. -/
def icmpTypeToCodeV6 (icmpType icmpCode : UInt8) : UInt8 × Bool :=
  match icmpType.toNat with
  | 128 => (129, false)
  | 129 => (128, false)
  | 133 => (134, false)
  | 134 => (133, false)
  | 135 => (136, false)
  | 136 => (135, false)
  | 130 => (131, false)
  | 131 => (130, false)
  | 139 => (140, false)
  | 140 => (139, false)
  | 144 => (145, false)
  | 145 => (144, false)
  | _ => (icmpCode, true)

/-- `htons`: the number whose bytes in memory are those of `port` in network order. -/
def htons (port : UInt16) : Nat := port.toNat % 256 * 256 + port.toNat / 256

/-- The bytes of an unsigned 16-bit number in memory. -/
def u16Bytes (n : Nat) : Bytes := [UInt8.ofNat (n % 256), UInt8.ofNat (n / 256)]

/-- An end of a flow: the address in network order and the port as `htons` leaves it. -/
abbrev Peer := Bytes × Nat

/-- `ndpi_community_id_peer_v4_is_less_than` and its sibling for IPv6; `compare` is the
result of `memcmp`. -/
def peerIsLessThan (peer1 peer2 : Peer) : Bool :=
  compare peer1.1 peer2.1 = .lt || compare peer1.1 peer2.1 = .eq && peer1.2 < peer2.2

/-- The first part of `ndpi_community_id_finalize_and_compute_hash`: what is behind the
addresses. -/
def finalBytes (l4Proto : UInt8) (srcPort dstPort : Nat) : Bytes :=
  [l4Proto, 0] ++
    if l4Proto = icmp ∨ l4Proto = icmpV6 ∨ l4Proto = sctp ∨ l4Proto = udp ∨ l4Proto = tcp then
      u16Bytes srcPort ++ u16Bytes dstPort
    else []

section

variable {Address : Type}

/-- The ports adjusted to the specification, and `icmp_one_way`. -/
def adjustedPorts (icmpProto : UInt8) (typeToCode : UInt8 → UInt8 → UInt8 × Bool)
    (flow : Flow Address) : UInt16 × UInt16 × Bool :=
  if flow.l4Proto = icmpProto then
    let code := typeToCode flow.icmpType flow.icmpCode
    (flow.icmpType.toUInt16, code.1.toUInt16, code.2)
  else if flow.l4Proto = sctp ∨ flow.l4Proto = udp ∨ flow.l4Proto = tcp then
    (flow.srcPort, flow.dstPort, false)
  else (0, 0, false)

/-- The first `off` bytes of `comm_buf`. The two hash functions differ in the protocol
they take for ICMP, in its types and in the addresses. -/
def commBuf (icmpProto : UInt8) (typeToCode : UInt8 → UInt8 → UInt8 × Bool)
    (addressBytes : Address → Bytes) (seed : Nat) (flow : Flow Address) : Bytes :=
  let ports := adjustedPorts icmpProto typeToCode flow
  let src := (addressBytes flow.srcIp, htons ports.1)
  let dst := (addressBytes flow.dstIp, htons ports.2.1)
  let peers := if ports.2.2 then (src, dst) else inOrder peerIsLessThan src dst
  u16Bytes seed ++ peers.1.1 ++ peers.2.1 ++ finalBytes flow.l4Proto peers.1.2 peers.2.2

end

/-- The bytes of `htonl` of an address. -/
def ipv4Bytes (ip : UInt32) : Bytes := beBytes 4 ip.toNat

def flowV4Buf (flow : Flow UInt32) : Bytes := commBuf icmp icmpTypeToCodeV4 ipv4Bytes 0 flow

def flowV6Buf (flow : Flow In6Addr) : Bytes := commBuf icmpV6 icmpTypeToCodeV6 In6Addr.bytes 0 flow

/-- `ndpi_community_id_finalize_and_compute_hash` on the finished buffer; `none` is
the return value -1. -/
def finalizeAndComputeHash (sha1 : Bytes → Bytes) (base64Encode : Bytes → Option Bytes)
    (commBuf : Bytes) (hashBufLen : Nat) : Option Bytes :=
  match base64Encode (sha1 commBuf) with
  | none => none
  | some communityId =>
    if hashBufLen < 2 ∨ hashBufLen - 2 < communityId.length + 1 then none
    else some (0x31 :: 0x3A :: communityId)

/-- `ndpi_flowv4_flow_hash`. -/
def flowV4FlowHash (sha1 : Bytes → Bytes) (base64Encode : Bytes → Option Bytes)
    (flow : Flow UInt32) (hashBufLen : UInt8) : Option Bytes :=
  finalizeAndComputeHash sha1 base64Encode (flowV4Buf flow) hashBufLen.toNat

/-- `ndpi_flowv6_flow_hash`. -/
def flowV6FlowHash (sha1 : Bytes → Bytes) (base64Encode : Bytes → Option Bytes)
    (flow : Flow In6Addr) (hashBufLen : UInt8) : Option Bytes :=
  finalizeAndComputeHash sha1 base64Encode (flowV6Buf flow) hashBufLen.toNat

end Ndpi.Source.CommunityId
