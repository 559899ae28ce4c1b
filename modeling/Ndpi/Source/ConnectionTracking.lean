import Ndpi.Lib.Memory

/-!
# Connection tracking

`ndpi_main.c:8452-8730,10428`, `ndpi_define.h.in:101-102` and
`ndpi_typedefs.h:493-515,645-656,864-875`: the direction of a packet, the TCP
handshake, sequence numbers and retransmissions of a flow, and its counters. Numbers
of the headers are in host order. Only the fields the function reads or sets are kept.
-/
namespace Ndpi.Source.ConnectionTracking
open Lib

/-- A value for each `packet_direction`; `true` is direction 1. -/
structure PerDirection (α : Type) where
  zero : α
  one : α
  deriving DecidableEq, Repr

namespace PerDirection

variable {α : Type}

def get (values : PerDirection α) (direction : Bool) : α :=
  if direction then values.one else values.zero

def set (values : PerDirection α) (direction : Bool) (value : α) : PerDirection α :=
  if direction then { values with one := value } else { values with zero := value }

end PerDirection

/-- The source and the destination in an IP header; `place` is where the header lies
in memory. -/
inductive IpHeader where
  | v4 (saddr daddr : UInt32)
  | v6 (place : Nat) (ip6Src ip6Dst : BitVec 128)
  deriving DecidableEq, Repr

structure TcpHeader where
  source : UInt16
  dest : UInt16
  seq : UInt32
  ackSeq : UInt32
  flags : BitVec 8
  deriving DecidableEq, Repr

namespace TcpHeader

def syn (h : TcpHeader) : Bool := h.flags.getLsbD 1
def rst (h : TcpHeader) : Bool := h.flags.getLsbD 2
def psh (h : TcpHeader) : Bool := h.flags.getLsbD 3
def ack (h : TcpHeader) : Bool := h.flags.getLsbD 4

end TcpHeader

inductive Transport where
  | tcp (header : TcpHeader)
  | udp (source dest : UInt16)
  | other
  deriving DecidableEq, Repr

/-- A packet of a flow, with the value that `packet_direction` of the flow has when it
is processed: the library never sets that field. -/
structure Packet where
  ip : IpHeader
  transport : Transport
  payload : Bytes
  short : payload.length < 65536
  currentTimeMs : Nat
  flowDirection : Bool

def Packet.payloadPacketLen (p : Packet) : Nat := p.payload.length

inductive FlowBeginning where
  | unknown | seen | notSeen
  deriving DecidableEq, Repr

inductive InPktDir where
  | unknown | cToS | sToC
  deriving DecidableEq, Repr

structure InputInfo where
  inPktDir : InPktDir
  seenFlowBeginning : FlowBeginning
  deriving DecidableEq, Repr

structure Config where
  directionDetectEnabled : Bool
  tcpAckPayloadHeuristic : Bool
  tcpMaxRetransmissionWindowSize : UInt32
  maxPayloadTrackLen : Nat

/-- `struct ndpi_flow_tcp_struct`. -/
structure FlowTcp where
  synTime : Nat
  synAckTime : Nat
  ackTime : Nat
  nextTcpSeqNr : PerDirection UInt32
  lastTcpPktPayloadLen : Nat
  cli2srvTcpFlags : BitVec 8
  srv2cliTcpFlags : BitVec 8
  seenSyn : Bool
  seenSynAck : Bool
  seenAck : Bool
  deriving DecidableEq

/-- `struct ndpi_flow_struct`; `tcpIssues` has the messages that the risk
`NDPI_TCP_ISSUES` has been set with. -/
structure Flow where
  flowPayload : Option Bytes
  isIpv6 : Bool
  tcp : FlowTcp
  tcpIssues : List String
  initFinished : Bool
  clientPacketDirection : Bool
  cAddress : Nat
  sAddress : Nat
  cPort : UInt16
  sPort : UInt16
  numProcessedPkts : UInt16
  packetCounter : Nat
  allPacketsCounter : Nat
  packetDirectionCounter : PerDirection Nat
  packetDirectionCompleteCounter : PerDirection Nat
  lastPacketTimeMs : Nat
  deriving DecidableEq

/-- A flow of which no packet has been processed. -/
def freshFlow : Flow :=
  ⟨none, false, ⟨0, 0, 0, ⟨0, 0⟩, 0, 0, 0, false, false, false⟩, [], false, false, 0, 0, 0, 0, 0, 0, 0,
    ⟨0, 0⟩, ⟨0, 0⟩, 0⟩

/-- The bytes kept of a payload; those that do not print are replaced. -/
def trackedBytes (payload : Bytes) : Bytes :=
  payload.map fun b =>
    if (0x20 ≤ b ∧ b ≤ 0x7E) ∨ (0x09 ≤ b ∧ b ≤ 0x0D) ∨ b = 0x20 then b else 0x2E

/-- `granted` tells whether the buffer for the payload can be allocated. -/
def trackPayload (cfg : Config) (granted : Bool) (p : Packet) (flow : Flow) : Flow :=
  if cfg.maxPayloadTrackLen > 0 ∧ p.payloadPacketLen > 0 then
    let buffer := if flow.flowPayload = none ∧ granted then some [] else flow.flowPayload
    { flow with flowPayload := buffer.map fun kept =>
        kept ++ (trackedBytes p.payload).take (cfg.maxPayloadTrackLen - kept.length) }
  else flow

/-- `NDPI_COMPARE_IPV6_ADDRESS_STRUCTS` as it expands: called with the pointers `x` and
`y` to two addresses, `x.u6_addr.u6_addr64[0]` reads `&(...u6_addr64[0])`, so that
places in memory are compared. -/
def compareIpv6AddressStructs (x y : Nat) : Bool :=
  x < y || (x == y && x + 8 < y + 8)

/-- The addresses in an IPv6 header follow its first 8 bytes. -/
def addressDirection : IpHeader → Bool
  | .v4 saddr daddr => saddr < daddr
  | .v6 place _ _ => compareIpv6AddressStructs (place + 8) (place + 24)

/-- The `packet_direction` of a packet. -/
def packetDirection (cfg : Config) (p : Packet) : Bool :=
  if cfg.directionDetectEnabled then
    match p.transport with
    | .tcp h => if h.source ≠ h.dest then h.source < h.dest else addressDirection p.ip
    | .udp source dest => if source ≠ dest then source < dest else addressDirection p.ip
    | .other => addressDirection p.ip
  else p.flowDirection

/-- `tcp_ack_padding`. -/
def tcpAckPadding (p : Packet) (h : TcpHeader) : Bool :=
  h.ack && !h.psh && p.payloadPacketLen < 8 && p.payloadPacketLen > 1 && p.payload.all (· == 0)

/-- The times of the three-way handshake. -/
def handshakeTimes (h : TcpHeader) (now : Nat) (t : FlowTcp) : FlowTcp :=
  if h.syn && h.ack then { t with synAckTime := now }
  else if h.syn then { t with synTime := now }
  else if h.ack && t.ackTime == 0 then { t with ackTime := now }
  else t

/-- The scans that the flags of one packet give away. -/
def scanIssues (direction : Bool) (h : TcpHeader) : List String :=
  (if h.flags = 0 then ["TCP NULL scan"]
    else if h.flags = 0x29 then ["TCP XMAS scan"] else []) ++
  (if direction = false ∧ h.flags = 0x01 then ["TCP FIN scan"] else [])

def collectFlags (direction : Bool) (h : TcpHeader) (t : FlowTcp) : FlowTcp :=
  if direction = false then { t with cli2srvTcpFlags := t.cli2srvTcpFlags ||| h.flags }
  else { t with srv2cliTcpFlags := t.srv2cliTcpFlags ||| h.flags }

def handshakeFlags (info : Option InputInfo) (h : TcpHeader) (t : FlowTcp) : FlowTcp :=
  if (info.all fun i => i.seenFlowBeginning == .unknown) then
    if h.syn && !h.ack && !t.seenSyn && !t.seenSynAck && !t.seenAck then { t with seenSyn := true }
    else if h.syn && h.ack && t.seenSyn && !t.seenSynAck && !t.seenAck then
      { t with seenSynAck := true }
    else if !h.syn && h.ack && t.seenSyn && t.seenSynAck && !t.seenAck then
      { t with seenAck := true }
    else t
  else t

/-- The sequence number behind a packet: `ntohl(seq) + (syn ? 1 : payload)`. -/
def nextSeq (p : Packet) (h : TcpHeader) : UInt32 :=
  h.seq + (if h.syn then 1 else UInt32.ofNat p.payloadPacketLen)

/-- The check of the sequence number: whether the packet is a retransmission, and the
numbers expected next. Zero stands for a number that is not known. -/
def checkSequence (cfg : Config) (flow : Flow) (p : Packet) (h : TcpHeader) (direction : Bool) :
    Bool × PerDirection UInt32 :=
  let next := flow.tcp.nextTcpSeqNr
  let payload := UInt32.ofNat p.payloadPacketLen
  if cfg.tcpAckPayloadHeuristic && tcpAckPadding p h then (true, next)
  else if next.zero = 0 ∨ next.one = 0 ∨ (h.syn = true ∧ flow.packetCounter = 0) then
    if h.ack then
      let next := next.set direction (nextSeq p h)
      (false, if flow.numProcessedPkts > 1 then next.set (!direction) h.ackSeq else next)
    else (false, next)
  else if p.payloadPacketLen > 0 then
    let expected := next.get direction
    if h.seq - expected > cfg.tcpMaxRetransmissionWindowSize then
      (flow.tcp.lastTcpPktPayloadLen > 0,
        if expected - h.seq < payload ∧ flow.numProcessedPkts > 1 then
          next.set direction (h.seq + payload)
        else next)
    else (false, next.set direction (h.seq + payload))
  else (false, next)

/-- The TCP part; `true` if the packet is a retransmission. -/
def trackTcp (cfg : Config) (info : Option InputInfo) (p : Packet) (h : TcpHeader)
    (direction : Bool) (flow : Flow) : Bool × Flow :=
  let (retransmission, next) := checkSequence cfg flow p h direction
  let t := handshakeFlags info h (collectFlags direction h
    (handshakeTimes h p.currentTimeMs flow.tcp))
  (retransmission, { flow with
    tcpIssues := flow.tcpIssues ++ scanIssues direction h
    tcp := { t with
      nextTcpSeqNr := if h.rst then ⟨0, 0⟩ else next
      lastTcpPktPayloadLen := p.payloadPacketLen } })

def Packet.ports (p : Packet) : UInt16 × UInt16 :=
  match p.transport with
  | .tcp h => (h.source, h.dest)
  | .udp source dest => (source, dest)
  | .other => (0, 0)

def Packet.addresses (p : Packet) : Nat × Nat :=
  match p.ip with
  | .v4 saddr daddr => (saddr.toNat, daddr.toNat)
  | .v6 _ ip6Src ip6Dst => (ip6Src.toNat, ip6Dst.toNat)

/-- The direction of the client, decided at the first packet. -/
def clientDirection (info : Option InputInfo) (p : Packet) (direction : Bool) : Bool :=
  match info with
  | some ⟨.cToS, _⟩ => direction
  | some ⟨.sToC, _⟩ => !direction
  | _ =>
    match p.transport with
    | .tcp h =>
      if h.syn then (if h.ack then !direction else direction)
      else if h.source < 1024 ∧ h.dest > 1024 then !direction else direction
    | .udp source dest => if source < 1024 ∧ dest > 1024 then !direction else direction
    | .other => direction

/-- What the first packet of a flow sets. -/
def initFlow (info : Option InputInfo) (p : Packet) (direction : Bool) (flow : Flow) : Flow :=
  if flow.initFinished then flow
  else
    let seen := info.any fun i => i.seenFlowBeginning == .seen
    let t := match p.transport with
      | .tcp _ => if seen then { flow.tcp with seenSyn := true, seenSynAck := true, seenAck := true }
        else flow.tcp
      | _ => flow.tcp
    let client := clientDirection info p direction
    let fromClient := direction == client
    { flow with
      initFinished := true
      tcp := t
      clientPacketDirection := client
      cAddress := if fromClient then p.addresses.1 else p.addresses.2
      sAddress := if fromClient then p.addresses.2 else p.addresses.1
      cPort := if fromClient then p.ports.1 else p.ports.2
      sPort := if fromClient then p.ports.2 else p.ports.1 }

/-- A counter that stops at `MAX_PACKET_COUNTER`. -/
def counted (n : Nat) : Nat := if n < 65000 then n + 1 else n

def countPacket (p : Packet) (direction : Bool) (flow : Flow) : Flow :=
  let data : Bool := p.payloadPacketLen > 0
  let perDirection := flow.packetDirectionCounter
  let complete := flow.packetDirectionCompleteCounter
  { flow with
    packetCounter := if data then counted flow.packetCounter else flow.packetCounter
    allPacketsCounter := counted flow.allPacketsCounter
    packetDirectionCounter :=
      if data then perDirection.set direction (counted (perDirection.get direction))
      else perDirection
    packetDirectionCompleteCounter := complete.set direction (counted (complete.get direction))
    lastPacketTimeMs := p.currentTimeMs }

/-- What `connection_tracking` leaves in the packet, the flow and the input. -/
structure Tracked where
  packetDirection : Bool
  tcpRetransmission : Bool
  flow : Flow
  inputInfo : Option InputInfo

/-- `connection_tracking`. -/
def connectionTracking (cfg : Config) (granted : Bool) (info : Option InputInfo) (flow : Flow)
    (p : Packet) : Tracked :=
  let flow := trackPayload cfg granted p flow
  let direction := packetDirection cfg p
  let flow := { flow with isIpv6 := match p.ip with | .v4 .. => false | .v6 .. => true }
  let (retransmission, flow) :=
    match p.transport with
    | .tcp h => trackTcp cfg info p h direction flow
    | _ => (false, flow)
  let flow := countPacket p direction (initFlow info p direction flow)
  let told (i : InputInfo) : InputInfo :=
    if i.inPktDir = .unknown then
      { i with inPktDir := if direction == flow.clientPacketDirection then .cToS else .sToC }
    else i
  ⟨direction, retransmission, flow, info.map told⟩

/-- A packet reaches the tracking after `ndpi_internal_detection_process_packet` has
counted it. -/
def processPacket (cfg : Config) (granted : Bool) (info : Option InputInfo) (flow : Flow)
    (p : Packet) : Tracked :=
  connectionTracking cfg granted info { flow with numProcessedPkts := flow.numProcessedPkts + 1 } p

end Ndpi.Source.ConnectionTracking
