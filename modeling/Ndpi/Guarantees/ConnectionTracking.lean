import Ndpi.Lib.Run
import Ndpi.Source.ConnectionTracking

/-!
# Directions and retransmissions

The direction of a packet is opposite to that of its reverse except where the IPv6
addresses would have to decide. A shift of the sequence numbers of one side leaves
the retransmissions as they are as long as no expected number becomes zero, which the
tracking takes for a number it does not know.
-/
namespace Ndpi.Guarantees.ConnectionTracking
open Lib Source.ConnectionTracking

/-- The second packet has the endpoints of the first one swapped. -/
structure IsReverse (p q : Packet) : Prop where
  version : (∃ saddr daddr, p.ip = .v4 saddr daddr ∧ q.ip = .v4 daddr saddr) ∨
    ∃ place place' src dst, p.ip = .v6 place src dst ∧ q.ip = .v6 place' dst src
  transport : (∃ h h', p.transport = .tcp h ∧ q.transport = .tcp h' ∧
      h'.source = h.dest ∧ h'.dest = h.source) ∨
    (∃ source dest, p.transport = .udp source dest ∧ q.transport = .udp dest source) ∨
    (p.transport = .other ∧ q.transport = .other)

lemma IsReverse.ports (reverse : IsReverse p q) : q.ports = (p.ports.2, p.ports.1) := by
  rcases reverse.transport with ⟨h, h', here, there, source, dest⟩ |
    ⟨source, dest, here, there⟩ | ⟨here, there⟩
  · simp [Packet.ports, here, there, source, dest]
  · simp [Packet.ports, here, there]
  · simp [Packet.ports, here, there]

def EndpointsDiffer (p : Packet) : Prop :=
  p.addresses.1 ≠ p.addresses.2 ∨ p.ports.1 ≠ p.ports.2

def IsV4 (p : Packet) : Prop := ∃ saddr daddr, p.ip = .v4 saddr daddr

lemma packetDirection_tracked (cfg : Config) (flow : Flow) (p : Packet) :
    (connectionTracking cfg granted info flow p).packetDirection = packetDirection cfg p := rfl

/-- The places in the header are compared, so that it is always the same. -/
lemma addressDirection_v6 :
    addressDirection (.v6 place src dst) = true := by
  simp [addressDirection, compareIpv6AddressStructs]

lemma addressDirection_v4_swapped (differ : saddr ≠ daddr) :
    addressDirection (.v4 daddr saddr) = !addressDirection (.v4 saddr daddr) := by
  simp only [addressDirection]
  rcases UInt32.lt_or_lt_of_ne differ with less | more
  · have back : ¬daddr < saddr := UInt32.lt_asymm less
    simp [less, back]
  · have back : ¬saddr < daddr := UInt32.lt_asymm more
    simp [more, back]

lemma lt_swapped {source : UInt16} (differ : source ≠ dest) :
    (decide (dest < source)) = !decide (source < dest) := by
  rcases UInt16.lt_or_lt_of_ne differ with less | more
  · have back : ¬dest < source := UInt16.lt_asymm less
    simp [less, back]
  · have back : ¬source < dest := UInt16.lt_asymm more
    simp [more, back]

/-- Different ports decide, and otherwise the addresses do. -/
lemma packetDirection_eq (enabled : cfg.directionDetectEnabled = true) (p : Packet) :
    packetDirection cfg p =
      if p.ports.1 ≠ p.ports.2 then decide (p.ports.1 < p.ports.2) else addressDirection p.ip := by
  rw [packetDirection, if_pos enabled, Packet.ports]
  cases p.transport with
  | tcp h => rfl
  | udp source dest => rfl
  | other => rfl

/-- The direction of a packet and that of its reverse are opposite exactly if it is an
IPv4 packet or its ports differ. -/
theorem packet_direction_opposite_iff (cfg : Config) (enabled : cfg.directionDetectEnabled = true)
    (granted granted' : Bool) (info info' : Option InputInfo) (flow flow' : Flow) (p q : Packet)
    (reverse : IsReverse p q) (differ : EndpointsDiffer p) :
    (connectionTracking cfg granted' info' flow' q).packetDirection =
        !(connectionTracking cfg granted info flow p).packetDirection ↔
      IsV4 p ∨ p.ports.1 ≠ p.ports.2 := by
  rw [packetDirection_tracked, packetDirection_tracked, packetDirection_eq enabled,
    packetDirection_eq enabled, reverse.ports]
  by_cases ports : p.ports.1 = p.ports.2
  · rw [if_neg (by simp [ports]), if_neg (by simp [ports])]
    have addresses : p.addresses.1 ≠ p.addresses.2 := differ.resolve_right fun other => other ports
    rcases reverse.version with ⟨saddr, daddr, here, there⟩ | ⟨place, place', src, dst, here, there⟩
    · have apart : saddr ≠ daddr := by
        rintro rfl
        rw [Packet.addresses, here] at addresses
        exact addresses rfl
      rw [here, there, addressDirection_v4_swapped apart]
      exact iff_of_true rfl (.inl ⟨saddr, daddr, here⟩)
    · rw [here, there, addressDirection_v6, addressDirection_v6]
      apply iff_of_false (by decide)
      rintro (⟨saddr, daddr, version⟩ | apart)
      · rw [here] at version
        cases version
      · exact apart ports
  · rw [if_pos (Ne.symm ports), if_pos ports]
    exact iff_of_true (lt_swapped ports) (.inr ports)

/-- The settings the library starts with. -/
def defaultConfig : Config := ⟨true, false, 0x10000, 0⟩

lemma no_payload_short : ([] : Bytes).length < 65536 := by decide

def emptyPacket (ip : IpHeader) (transport : Transport) : Packet :=
  ⟨ip, transport, [], no_payload_short, 0, false⟩

/-- A UDP packet from 10.0.0.1 to 10.0.0.2 with the same port on both sides. -/
theorem ntp_directions_opposite :
    (connectionTracking defaultConfig true none freshFlow
        (emptyPacket (.v4 0x0A000002 0x0A000001) (.udp 123 123))).packetDirection =
      !(connectionTracking defaultConfig true none freshFlow
        (emptyPacket (.v4 0x0A000001 0x0A000002) (.udp 123 123))).packetDirection :=
  (packet_direction_opposite_iff defaultConfig rfl true true none none freshFlow freshFlow
    (emptyPacket (.v4 0x0A000001 0x0A000002) (.udp 123 123))
    (emptyPacket (.v4 0x0A000002 0x0A000001) (.udp 123 123))
    ⟨.inl ⟨_, _, rfl, rfl⟩, .inr (.inl ⟨_, _, rfl, rfl⟩)⟩ (.inl (by decide))).mpr
    (.inl ⟨_, _, rfl⟩)

/-- The same packet over IPv6, between the addresses 1 and 2. -/
def ntp6 : Packet := emptyPacket (.v6 0 1 2) (.udp 123 123)

def ntp6Reverse : Packet := emptyPacket (.v6 0 2 1) (.udp 123 123)

theorem ntp6_directions_equal :
    IsReverse ntp6 ntp6Reverse ∧ EndpointsDiffer ntp6 ∧
      (connectionTracking defaultConfig true none freshFlow ntp6Reverse).packetDirection =
        (connectionTracking defaultConfig true none freshFlow ntp6).packetDirection :=
  ⟨⟨.inr ⟨_, _, _, _, rfl, rfl⟩, .inr (.inl ⟨_, _, rfl, rfl⟩)⟩, .inl (by decide), rfl⟩

/-- A TCP packet of a flow between two endpoints, sent by the first of them or, if
`back` is set, by the second, and what else the tracking meets with it. -/
structure Segment where
  back : Bool
  seq : UInt32
  ackSeq : UInt32
  flags : BitVec 8
  payload : Bytes
  short : payload.length < 65536
  currentTimeMs : Nat
  flowDirection : Bool
  granted : Bool
  info : Option InputInfo

/-- The two endpoints of a TCP flow. -/
structure Endpoints where
  ip : IpHeader
  firstPort : UInt16
  secondPort : UInt16

def Endpoints.backIp (ends : Endpoints) : IpHeader :=
  match ends.ip with
  | .v4 saddr daddr => .v4 daddr saddr
  | .v6 place src dst => .v6 place dst src

def Segment.header (seg : Segment) (ends : Endpoints) : TcpHeader :=
  if seg.back then ⟨ends.secondPort, ends.firstPort, seg.seq, seg.ackSeq, seg.flags⟩
  else ⟨ends.firstPort, ends.secondPort, seg.seq, seg.ackSeq, seg.flags⟩

def Segment.packet (seg : Segment) (ends : Endpoints) : Packet :=
  ⟨if seg.back then ends.backIp else ends.ip, .tcp (seg.header ends), seg.payload, seg.short,
    seg.currentTimeMs, seg.flowDirection⟩

/-- The sequence numbers of one side moved by `k`, and the acknowledgements of them. -/
def Segment.shift (side : Bool) (k : UInt32) (seg : Segment) : Segment :=
  if seg.back = side then { seg with seq := seg.seq + k }
  else { seg with ackSeq := seg.ackSeq + k }

def trackSegment (cfg : Config) (ends : Endpoints) (flow : Flow) (seg : Segment) : Tracked :=
  processPacket cfg seg.granted seg.info flow (seg.packet ends)

def flowStep (cfg : Config) (ends : Endpoints) (flow : Flow) (seg : Segment) : Flow :=
  (trackSegment cfg ends flow seg).flow

/-- The verdicts on the packets of a trace, in order. -/
def verdicts (cfg : Config) (ends : Endpoints) : Flow → List Segment → List Bool
  | _, [] => []
  | flow, seg :: rest =>
    (trackSegment cfg ends flow seg).tcpRetransmission ::
      verdicts cfg ends (flowStep cfg ends flow seg) rest

/-- The number that a packet sets as the one expected next in direction `d`, if any. -/
def stored (cfg : Config) (flow : Flow) (p : Packet) (h : TcpHeader) (direction d : Bool) :
    Option UInt32 :=
  let next := flow.tcp.nextTcpSeqNr
  let payload := UInt32.ofNat p.payloadPacketLen
  if cfg.tcpAckPayloadHeuristic && tcpAckPadding p h then none
  else if next.zero = 0 ∨ next.one = 0 ∨ (h.syn = true ∧ flow.packetCounter = 0) then
    if h.ack then
      if direction = d then some (nextSeq p h)
      else if flow.numProcessedPkts > 1 then some h.ackSeq else none
    else none
  else if p.payloadPacketLen > 0 ∧ direction = d then
    if h.seq - next.get d > cfg.tcpMaxRetransmissionWindowSize then
      if next.get d - h.seq < payload ∧ flow.numProcessedPkts > 1 then some (h.seq + payload)
      else none
    else some (h.seq + payload)
  else none

lemma PerDirection.get_set_self (values : PerDirection α) (d : Bool) (value : α) :
    (values.set d value).get d = value := by
  cases d <;> rfl

lemma PerDirection.get_set_other (values : PerDirection α) (value : α) (other : e ≠ d) :
    (values.set e value).get d = values.get d := by
  cases d <;> cases e <;> first | rfl | exact absurd rfl other

lemma checkSequence_next :
    (checkSequence cfg flow p h direction).2.get d =
      (stored cfg flow p h direction d).getD (flow.tcp.nextTcpSeqNr.get d) := by
  -- both sides are the same tree of conditions, with the same number at every leaf
  have push : ∀ (c : Prop) [Decidable c] (yes no : PerDirection UInt32),
      (if c then yes else no).get d = if c then yes.get d else no.get d :=
    fun c _ yes no => apply_ite (PerDirection.get · d) c yes no
  have known : ∀ (c : Prop) [Decidable c] (yes no : Option UInt32),
      (if c then yes else no).getD (flow.tcp.nextTcpSeqNr.get d) =
        if c then yes.getD (flow.tcp.nextTcpSeqNr.get d)
        else no.getD (flow.tcp.nextTcpSeqNr.get d) :=
    fun c _ yes no => apply_ite (Option.getD · _) c yes no
  unfold checkSequence stored
  by_cases here : direction = d
  · subst here
    have there : (!direction) ≠ direction := by cases direction <;> decide
    simp [apply_ite Prod.snd, push, known, PerDirection.get_set_self,
      PerDirection.get_set_other _ _ there]
  · have there : (!direction) = d := by
      cases direction <;> cases d <;> first | rfl | exact absurd rfl here
    simp [apply_ite Prod.snd, push, known, there, PerDirection.get_set_self,
      PerDirection.get_set_other _ _ here, here]

/-- Two flows that differ by the shift of one direction: its expected number is
unknown in both, or moved by `k`. -/
structure Related (d : Bool) (k : UInt32) (flow flow' : Flow) : Prop where
  other : flow'.tcp.nextTcpSeqNr.get (!d) = flow.tcp.nextTcpSeqNr.get (!d)
  unknown : flow'.tcp.nextTcpSeqNr.get d = 0 ↔ flow.tcp.nextTcpSeqNr.get d = 0
  moved : flow.tcp.nextTcpSeqNr.get d ≠ 0 →
    flow'.tcp.nextTcpSeqNr.get d = flow.tcp.nextTcpSeqNr.get d + k
  last : flow'.tcp.lastTcpPktPayloadLen = flow.tcp.lastTcpPktPayloadLen
  counter : flow'.packetCounter = flow.packetCounter
  processed : flow'.numProcessedPkts = flow.numProcessedPkts

/-- A packet and the packet after the shift of direction `d`. -/
structure Moved (d : Bool) (k : UInt32) (direction : Bool) (p p' : Packet) (h h' : TcpHeader) :
    Prop where
  payload : p'.payload = p.payload
  flags : h'.flags = h.flags
  seq : h'.seq = h.seq + if direction = d then k else 0
  ackSeq : h'.ackSeq = h.ackSeq + if direction = d then 0 else k

section

variable {d : Bool} {k : UInt32} {flow flow' : Flow} {direction : Bool} {p p' : Packet}
  {h h' : TcpHeader}

lemma Moved.padding (moved : Moved d k direction p p' h h') :
    tcpAckPadding p' h' = tcpAckPadding p h := by
  unfold tcpAckPadding TcpHeader.ack TcpHeader.psh Packet.payloadPacketLen
  rw [moved.payload, moved.flags]

lemma get_eq_zero_iff (values : PerDirection UInt32) (d : Bool) :
    (values.zero = 0 ∨ values.one = 0) ↔ (values.get d = 0 ∨ values.get (!d) = 0) := by
  cases d
  · rfl
  · exact or_comm

lemma Related.unknown_iff (related : Related d k flow flow')
    (moved : Moved d k direction p p' h h') :
    (flow'.tcp.nextTcpSeqNr.zero = 0 ∨ flow'.tcp.nextTcpSeqNr.one = 0 ∨
        (h'.syn = true ∧ flow'.packetCounter = 0)) ↔
      (flow.tcp.nextTcpSeqNr.zero = 0 ∨ flow.tcp.nextTcpSeqNr.one = 0 ∨
        (h.syn = true ∧ flow.packetCounter = 0)) := by
  rw [← or_assoc, ← or_assoc, get_eq_zero_iff _ d, get_eq_zero_iff _ d, related.unknown,
    related.other, related.counter, TcpHeader.syn, TcpHeader.syn, moved.flags]

/-- A known number has moved along with the packets of its direction. -/
lemma Related.expected (related : Related d k flow flow')
    (known : flow.tcp.nextTcpSeqNr.get direction ≠ 0) :
    flow'.tcp.nextTcpSeqNr.get direction =
      flow.tcp.nextTcpSeqNr.get direction + if direction = d then k else 0 := by
  by_cases here : direction = d
  · rw [if_pos here, here]
    exact related.moved (here ▸ known)
  · have there : direction = !d := by
      cases direction <;> cases d <;> first | rfl | exact absurd rfl here
    rw [if_neg here, there, related.other, UInt32.add_zero]

lemma known_get {values : PerDirection UInt32} (direction : Bool) (zero : values.zero ≠ 0)
    (one : values.one ≠ 0) : values.get direction ≠ 0 := by
  cases direction
  · exact zero
  · exact one

lemma Related.distance (related : Related d k flow flow') (moved : Moved d k direction p p' h h')
    (known : flow.tcp.nextTcpSeqNr.get direction ≠ 0) :
    h'.seq - flow'.tcp.nextTcpSeqNr.get direction = h.seq - flow.tcp.nextTcpSeqNr.get direction ∧
      flow'.tcp.nextTcpSeqNr.get direction - h'.seq =
        flow.tcp.nextTcpSeqNr.get direction - h.seq := by
  rw [related.expected known, moved.seq]
  exact ⟨by grind, by grind⟩

lemma Related.verdict (related : Related d k flow flow')
    (moved : Moved d k direction p p' h h') (cfg : Config) :
    (checkSequence cfg flow' p' h' direction).1 = (checkSequence cfg flow p h direction).1 := by
  unfold checkSequence Packet.payloadPacketLen
  simp only [moved.padding, related.unknown_iff moved, apply_ite Prod.fst, ite_self]
  by_cases unknown : flow.tcp.nextTcpSeqNr.zero = 0 ∨ flow.tcp.nextTcpSeqNr.one = 0 ∨
      (h.syn = true ∧ flow.packetCounter = 0)
  · simp [if_pos unknown]
  · have known := known_get direction (fun zero => unknown (.inl zero))
      fun one => unknown (.inr (.inl one))
    simp [if_neg unknown, (related.distance moved known).1, related.last, moved.payload]

lemma Moved.nextSeq (moved : Moved d k direction p p' h h') :
    nextSeq p' h' = nextSeq p h + if direction = d then k else 0 := by
  unfold Source.ConnectionTracking.nextSeq TcpHeader.syn Packet.payloadPacketLen
  rw [moved.payload, moved.flags, moved.seq]
  grind

/-- The packets of one direction are acknowledged by those of the other. -/
lemma Moved.ackSeq_other (moved : Moved d k direction p p' h h') (other : direction ≠ e) :
    h'.ackSeq = h.ackSeq + if e = d then k else 0 := by
  rw [moved.ackSeq]
  cases d <;> cases direction <;> cases e <;> first | rfl | exact absurd rfl other

lemma Related.stored (related : Related d k flow flow')
    (moved : Moved d k direction p p' h h') (cfg : Config) (e : Bool) :
    stored cfg flow' p' h' direction e =
      (stored cfg flow p h direction e).map (· + if e = d then k else 0) := by
  have ack : h'.ack = h.ack := by rw [TcpHeader.ack, TcpHeader.ack, moved.flags]
  have len : p'.payloadPacketLen = p.payloadPacketLen := congrArg List.length moved.payload
  unfold ConnectionTracking.stored
  simp only [moved.padding, related.unknown_iff moved, related.processed, ack, len]
  split
  · rfl
  · split
    · split
      · by_cases here : direction = e
        · rw [if_pos here, if_pos here, moved.nextSeq, here]
          rfl
        · rw [if_neg here, if_neg here]
          split
          · rw [moved.ackSeq_other here]
            rfl
          · rfl
      · rfl
    · next unknown =>
      have known := known_get direction (fun zero => unknown (.inl zero))
        fun one => unknown (.inr (.inl one))
      by_cases data : p.payloadPacketLen > 0 ∧ direction = e
      · have here := data.2
        subst here
        have distance := related.distance moved known
        have behind : h'.seq + UInt32.ofNat p.payloadPacketLen =
            h.seq + UInt32.ofNat p.payloadPacketLen + if direction = d then k else 0 := by
          rw [moved.seq]
          grind
        rw [if_pos data, if_pos data, distance.1, distance.2, behind]
        split
        · split
          · rfl
          · rfl
        · rfl
      · rw [if_neg data, if_neg data]
        rfl

end

lemma trackPayload_eq (flow : Flow) :
    ∃ kept, trackPayload cfg granted p flow = { flow with flowPayload := kept } := by
  unfold trackPayload
  split
  · exact ⟨_, rfl⟩
  · exact ⟨flow.flowPayload, rfl⟩

lemma initFlow_frame (info : Option InputInfo) (p : Packet) (direction : Bool) (flow : Flow) :
    (initFlow info p direction flow).tcp.nextTcpSeqNr = flow.tcp.nextTcpSeqNr ∧
      (initFlow info p direction flow).tcp.lastTcpPktPayloadLen = flow.tcp.lastTcpPktPayloadLen ∧
      (initFlow info p direction flow).packetCounter = flow.packetCounter ∧
      (initFlow info p direction flow).numProcessedPkts = flow.numProcessedPkts := by
  unfold initFlow
  split
  · exact ⟨rfl, rfl, rfl, rfl⟩
  · cases p.transport with
    | tcp h =>
      dsimp only
      split <;> exact ⟨rfl, rfl, rfl, rfl⟩
    | udp source dest => exact ⟨rfl, rfl, rfl, rfl⟩
    | other => exact ⟨rfl, rfl, rfl, rfl⟩

lemma countPacket_counter (p : Packet) (direction : Bool) (flow : Flow) :
    (countPacket p direction flow).packetCounter =
      if p.payloadPacketLen > 0 then counted flow.packetCounter else flow.packetCounter := by
  simp [countPacket]

/-- The check of a segment's sequence number. -/
def checked (cfg : Config) (ends : Endpoints) (flow : Flow) (seg : Segment) :
    Bool × PerDirection UInt32 :=
  checkSequence cfg { flow with numProcessedPkts := flow.numProcessedPkts + 1 } (seg.packet ends)
    (seg.header ends) (packetDirection cfg (seg.packet ends))

lemma trackSegment_verdict (cfg : Config) (ends : Endpoints) (flow : Flow) (seg : Segment) :
    (trackSegment cfg ends flow seg).tcpRetransmission = (checked cfg ends flow seg).1 := by
  obtain ⟨kept, payload⟩ := trackPayload_eq
    { flow with numProcessedPkts := flow.numProcessedPkts + 1 }
  unfold trackSegment processPacket connectionTracking
  rw [payload]
  rfl

/-- What a segment does to the part of a flow that the verdicts rest on. -/
lemma flowStep_frame (cfg : Config) (ends : Endpoints) (flow : Flow) (seg : Segment) :
    (flowStep cfg ends flow seg).tcp.nextTcpSeqNr =
        (if (seg.header ends).rst then ⟨0, 0⟩ else (checked cfg ends flow seg).2) ∧
      (flowStep cfg ends flow seg).tcp.lastTcpPktPayloadLen = seg.payload.length ∧
      (flowStep cfg ends flow seg).packetCounter =
        (if seg.payload.length > 0 then counted flow.packetCounter else flow.packetCounter) ∧
      (flowStep cfg ends flow seg).numProcessedPkts = flow.numProcessedPkts + 1 := by
  obtain ⟨kept, payload⟩ := trackPayload_eq
    { flow with numProcessedPkts := flow.numProcessedPkts + 1 }
  unfold flowStep trackSegment processPacket connectionTracking
  rw [payload]
  have transport : (seg.packet ends).transport = .tcp (seg.header ends) := rfl
  simp only [transport]
  generalize entry : trackTcp cfg seg.info (seg.packet ends) (seg.header ends) _ _ = tracked
  obtain ⟨next, last, counter, processed⟩ := initFlow_frame seg.info (seg.packet ends)
    (packetDirection cfg (seg.packet ends)) tracked.2
  have same : tracked.2.packetCounter = flow.packetCounter := by
    rw [← entry]
    rfl
  refine ⟨?_, ?_, ?_, ?_⟩
  · exact next.trans (by rw [← entry]; rfl)
  · exact last.trans (by rw [← entry]; rfl)
  · rw [countPacket_counter, counter, same]
    rfl
  · exact processed.trans (by rw [← entry]; rfl)

/-- The number that a segment sets as the one expected next in direction `d`, if any. -/
def storedBy (cfg : Config) (ends : Endpoints) (flow : Flow) (seg : Segment) (d : Bool) :
    Option UInt32 :=
  stored cfg { flow with numProcessedPkts := flow.numProcessedPkts + 1 } (seg.packet ends)
    (seg.header ends) (packetDirection cfg (seg.packet ends)) d

lemma checked_next (cfg : Config) (ends : Endpoints) (flow : Flow) (seg : Segment) (d : Bool) :
    (checked cfg ends flow seg).2.get d =
      (storedBy cfg ends flow seg d).getD (flow.tcp.nextTcpSeqNr.get d) :=
  checkSequence_next

lemma packetDirection_shift (cfg : Config) (ends : Endpoints) (side : Bool) (k : UInt32)
    (seg : Segment) :
    packetDirection cfg ((seg.shift side k).packet ends) = packetDirection cfg (seg.packet ends) := by
  unfold Segment.shift
  split <;> cases back : seg.back <;> simp [Segment.packet, Segment.header, packetDirection, back]

lemma shift_moved {cfg : Config} {ends : Endpoints} {side d : Bool} {k : UInt32} {seg : Segment}
    (apart : packetDirection cfg (seg.packet ends) = d ↔ seg.back = side) :
    Moved d k (packetDirection cfg (seg.packet ends)) (seg.packet ends)
      ((seg.shift side k).packet ends) (seg.header ends) ((seg.shift side k).header ends) := by
  generalize packetDirection cfg (seg.packet ends) = direction at apart ⊢
  unfold Segment.shift
  split
  · next here =>
    cases back : seg.back <;>
      constructor <;> simp [Segment.packet, Segment.header, back, apart.mpr here]
  · next here =>
    cases back : seg.back <;>
      constructor <;> simp [Segment.packet, Segment.header, back, mt apart.mp here]

lemma shift_frame {side : Bool} {k : UInt32} {seg : Segment} :
    (seg.shift side k).payload = seg.payload ∧ (seg.shift side k).flags = seg.flags := by
  unfold Segment.shift
  split <;> exact ⟨rfl, rfl⟩

lemma header_rst (seg : Segment) (ends : Endpoints) :
    (seg.header ends).rst = seg.flags.getLsbD 2 := by
  unfold Segment.header
  split <;> rfl

lemma Related.counted_packet (related : Related d k flow flow') :
    Related d k { flow with numProcessedPkts := flow.numProcessedPkts + 1 }
      { flow' with numProcessedPkts := flow'.numProcessedPkts + 1 } :=
  ⟨related.other, related.unknown, related.moved, related.last, related.counter,
    congrArg (· + 1) related.processed⟩

section

variable {cfg : Config} {ends : Endpoints} {side d : Bool} {k : UInt32} {flow flow' : Flow}
  {seg : Segment} (related : Related d k flow flow')
  (apart : packetDirection cfg (seg.packet ends) = d ↔ seg.back = side)

include related apart

lemma checked_verdict :
    (checked cfg ends flow' (seg.shift side k)).1 = (checked cfg ends flow seg).1 := by
  unfold checked
  rw [packetDirection_shift]
  exact related.counted_packet.verdict (shift_moved apart) cfg

lemma storedBy_shift (e : Bool) :
    storedBy cfg ends flow' (seg.shift side k) e =
      (storedBy cfg ends flow seg e).map (· + if e = d then k else 0) := by
  unfold storedBy
  rw [packetDirection_shift]
  exact related.counted_packet.stored (shift_moved apart) cfg e

/-- Unless it sets the number of the shifted direction to zero, a segment keeps the
two flows apart by the shift. -/
lemma related_step (known : storedBy cfg ends flow seg d ≠ some 0)
    (known' : storedBy cfg ends flow' (seg.shift side k) d ≠ some 0) :
    Related d k (flowStep cfg ends flow seg) (flowStep cfg ends flow' (seg.shift side k)) := by
  obtain ⟨next, last, counter, processed⟩ := flowStep_frame cfg ends flow seg
  obtain ⟨next', last', counter', processed'⟩ := flowStep_frame cfg ends flow' (seg.shift side k)
  obtain ⟨payload, flags⟩ := shift_frame
  rw [header_rst] at next
  rw [header_rst, flags] at next'
  rw [payload] at last' counter'
  have stores := storedBy_shift related apart
  have lasts : (flowStep cfg ends flow' (seg.shift side k)).tcp.lastTcpPktPayloadLen =
      (flowStep cfg ends flow seg).tcp.lastTcpPktPayloadLen := by rw [last, last']
  have counters : (flowStep cfg ends flow' (seg.shift side k)).packetCounter =
      (flowStep cfg ends flow seg).packetCounter := by rw [counter, counter', related.counter]
  have processeds : (flowStep cfg ends flow' (seg.shift side k)).numProcessedPkts =
      (flowStep cfg ends flow seg).numProcessedPkts := by
    rw [processed, processed', related.processed]
  cases reset : seg.flags.getLsbD 2 with
  | true =>
    rw [reset, if_pos rfl] at next next'
    have zero (e : Bool) : (⟨0, 0⟩ : PerDirection UInt32).get e = 0 := by cases e <;> rfl
    refine ⟨by rw [next, next'], by rw [next, next'], ?_, lasts, counters, processeds⟩
    rw [next, zero]
    exact fun nonzero => absurd rfl nonzero
  | false =>
    rw [reset, if_neg (by decide)] at next next'
    refine ⟨?_, ?_, ?_, lasts, counters, processeds⟩
    · have off : ¬(!d) = d := by cases d <;> decide
      rw [next, next', checked_next, checked_next, stores, if_neg off, related.other]
      cases storedBy cfg ends flow seg (!d) with
      | none => rfl
      | some number => exact UInt32.add_zero number
    · rw [stores, if_pos rfl] at known'
      rw [next, next', checked_next, checked_next, stores, if_pos rfl]
      cases number : storedBy cfg ends flow seg d with
      | none => exact related.unknown
      | some number' =>
        rw [number] at known known'
        exact iff_of_false (fun zero => known' (congrArg some zero))
          fun zero => known (congrArg some zero)
    · rw [next, next', checked_next, checked_next, stores, if_pos rfl]
      cases storedBy cfg ends flow seg d with
      | none => exact related.moved
      | some number => exact fun _ => rfl

end

lemma verdicts_shift (related : Related d k flow flow')
    (apart : ∀ seg ∈ trace, packetDirection cfg (seg.packet ends) = d ↔ seg.back = side)
    (known : EveryStep (flowStep cfg ends) (fun flow seg => storedBy cfg ends flow seg d ≠ some 0)
      flow trace)
    (known' : EveryStep (flowStep cfg ends) (fun flow seg => storedBy cfg ends flow seg d ≠ some 0)
      flow' (trace.map (Segment.shift side k))) :
    verdicts cfg ends flow' (trace.map (Segment.shift side k)) = verdicts cfg ends flow trace := by
  induction trace generalizing flow flow' with
  | nil => rfl
  | cons seg rest ih =>
    rw [List.map_cons, everyStep_cons] at known'
    rw [everyStep_cons] at known
    have here := apart seg List.mem_cons_self
    rw [List.map_cons, verdicts, verdicts, trackSegment_verdict, trackSegment_verdict,
      checked_verdict related here]
    rw [ih (related_step related here known.1 known'.1)
      (fun other later => apart other (List.mem_cons_of_mem seg later)) known.2 known'.2]

lemma related_fresh (d : Bool) (k : UInt32) : Related d k freshFlow freshFlow :=
  ⟨rfl, Iff.rfl, fun nonzero => absurd (by cases d <;> rfl) nonzero, rfl, rfl, rfl⟩

/-- Let the tracking tell the packets of the two sides apart. In every run in which no
packet, before and after the shift of one side, sets the number expected from that
side to zero, the shift leaves all verdicts as they are. -/
theorem retransmissions_kept_by_shift (cfg : Config) (ends : Endpoints) (side d : Bool)
    (k : UInt32) (trace : List Segment)
    (apart : ∀ seg ∈ trace, packetDirection cfg (seg.packet ends) = d ↔ seg.back = side)
    (known : EveryStep (flowStep cfg ends) (fun flow seg => storedBy cfg ends flow seg d ≠ some 0)
      freshFlow trace)
    (known' : EveryStep (flowStep cfg ends) (fun flow seg => storedBy cfg ends flow seg d ≠ some 0)
      freshFlow (trace.map (Segment.shift side k))) :
    verdicts cfg ends freshFlow (trace.map (Segment.shift side k)) =
      verdicts cfg ends freshFlow trace :=
  verdicts_shift (related_fresh d k) apart known known'

/-- Ports 50000 of 10.0.0.1 and 80 of 10.0.0.2. -/
def webEndpoints : Endpoints := ⟨.v4 0x0A000001 0x0A000002, 50000, 80⟩

def oneByte (back : Bool) (seq ackSeq : UInt32) : Segment :=
  ⟨back, seq, ackSeq, 0x10, [0x61], by decide, 0, false, true, none⟩

/-- A byte of the client with this sequence number, the answer, and the byte again. -/
def repeatedByte (seq : UInt32) : List Segment :=
  [oneByte false seq 1000, oneByte true 1000 (seq + 1), oneByte false seq 1001]

theorem repeated_byte_found :
    verdicts defaultConfig webEndpoints freshFlow ((repeatedByte 0).map (Segment.shift false 7)) =
      verdicts defaultConfig webEndpoints freshFlow (repeatedByte 0) :=
  retransmissions_kept_by_shift defaultConfig webEndpoints false false 7 (repeatedByte 0)
    (by decide)
    (everyStep_cons.mpr ⟨by decide, everyStep_cons.mpr ⟨by decide,
      everyStep_cons.mpr ⟨by decide, everyStep_nil⟩⟩⟩)
    (everyStep_cons.mpr ⟨by decide, everyStep_cons.mpr ⟨by decide,
      everyStep_cons.mpr ⟨by decide, everyStep_nil⟩⟩⟩)

/-- The second time the byte ends at sequence number 0, which passes for unknown. -/
theorem repeated_byte_missed :
    verdicts defaultConfig webEndpoints freshFlow (repeatedByte 0) = [false, false, true] ∧
      verdicts defaultConfig webEndpoints freshFlow
        ((repeatedByte 0).map (Segment.shift false 0xFFFFFFFF)) = [false, false, false] := by
  decide

end Ndpi.Guarantees.ConnectionTracking
