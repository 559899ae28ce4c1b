import Ndpi.Guarantees.ConnectionTracking

/-!
# Whole flows

What a flow holds after any packets, in any order and from either side: its
handshake, its counters and the payload that is kept of it.
-/
namespace Ndpi.Guarantees.FlowTracking
open Lib Source.ConnectionTracking ConnectionTracking List

/-- A packet, what the caller says of its flow, and whether memory is granted. -/
structure Arrival where
  granted : Bool
  info : Option InputInfo
  packet : Packet

def arrivalStep (cfg : Config) (flow : Flow) (a : Arrival) : Flow :=
  (processPacket cfg a.granted a.info flow a.packet).flow

def flowOf (cfg : Config) (arrivals : List Arrival) : Flow :=
  run (arrivalStep cfg) freshFlow arrivals

/-- The segments of a handshake. -/
inductive Part where
  | syn | synAck | ack
  deriving DecidableEq

/-- What a packet can be for the handshake, if the caller leaves that open. -/
def Arrival.part (a : Arrival) : Option Part :=
  match a.packet.transport with
  | .tcp h =>
    if a.info.all (·.seenFlowBeginning == .unknown) then
      if h.syn then some (if h.ack then .synAck else .syn) else if h.ack then some .ack else none
    else none
  | _ => none

/-- The caller has seen the beginning of the connection. -/
def Arrival.told (a : Arrival) : Bool :=
  match a.packet.transport with
  | .tcp _ => a.info.any (·.seenFlowBeginning == .seen)
  | _ => false

/-- What has been seen of the handshake. -/
def handshake (t : FlowTcp) : Bool × Bool × Bool := (t.seenSyn, t.seenSynAck, t.seenAck)

def Arrival.advance (a : Arrival) : Bool × Bool × Bool → Bool × Bool × Bool
  | (syn, synAck, ack) =>
    (syn || a.part = some .syn && !synAck && !ack, synAck || a.part = some .synAck && syn && !ack,
      ack || a.part = some .ack && syn && synAck)

lemma handshakeFlags_eq {a : Arrival} (isTcp : a.packet.transport = .tcp h) (d : Bool) (now : Nat)
    (t : FlowTcp) : handshake (handshakeFlags a.info h (collectFlags d h (handshakeTimes h now t))) =
      a.advance (handshake t) := by
  have same : handshake (collectFlags d h (handshakeTimes h now t)) = handshake t := by
    grind [collectFlags, handshakeTimes, handshake]
  rw [← same]
  obtain ⟨synTime, synAckTime, ackTime, next, length, client, server, syn, synAck, ack⟩ :=
    collectFlags d h (handshakeTimes h now t)
  simp only [handshakeFlags, Arrival.advance, Arrival.part, isTcp]
  cases a.info.all _ <;> cases h.syn <;> cases h.ack <;> cases syn <;> cases synAck <;>
    cases ack <;> rfl

/-- What a packet does to a flow. -/
structure Tracks (cfg : Config) (flow : Flow) (a : Arrival) (after : Flow) : Prop where
  initFinished : after.initFinished = true
  payload : after.flowPayload = (trackPayload cfg a.granted a.packet flow).flowPayload
  handshake : handshake after.tcp = if !flow.initFinished && a.told then (true, true, true)
    else a.advance (handshake flow.tcp)

lemma arrivalStep_tracks (cfg : Config) (flow : Flow) (a : Arrival) :
    Tracks cfg flow a (arrivalStep cfg flow a) := by
  cases transport : a.packet.transport with
  | tcp h =>
    have flags := handshakeFlags_eq transport (packetDirection cfg a.packet)
      a.packet.currentTimeMs flow.tcp
    constructor <;> grind [arrivalStep, processPacket, connectionTracking, countPacket,
      initFlow, trackPayload, trackTcp, Arrival.told, handshake]
  | _ =>
    constructor <;> grind [arrivalStep, processPacket, connectionTracking, countPacket,
      initFlow, trackPayload, Arrival.part, Arrival.told, Arrival.advance, handshake]

variable (cfg : Config) (arrivals : List Arrival)

lemma flowOf_tracks (a : Arrival) :
    Tracks cfg (flowOf cfg arrivals) a (flowOf cfg (arrivals ++ [a])) := by
  unfold flowOf
  rw [run_concat]
  exact arrivalStep_tracks ..

lemma flowOf_initFinished : (flowOf cfg arrivals).initFinished = !arrivals.isEmpty := by
  induction arrivals using List.reverseRecOn with
  | nil => rfl
  | append_singleton arrivals a => exact (flowOf_tracks cfg arrivals a).initFinished.trans (by simp)

/-- The payload kept of a flow is what prints of its data from the first packet on that
gets memory for it, cut off at the limit. -/
theorem payload_kept :
    let taken : List Arrival := arrivals.dropWhile fun a => !a.granted || a.packet.payload = []
    (flowOf cfg arrivals).flowPayload =
      if cfg.maxPayloadTrackLen = 0 ∨ taken = [] then none
      else some ((taken.flatMap (trackedBytes ·.packet.payload)).take cfg.maxPayloadTrackLen) := by
  induction arrivals using List.reverseRecOn with
  | nil => simp [flowOf, run, freshFlow]
  | append_singleton arrivals a ih =>
    simp only [(flowOf_tracks cfg arrivals a).payload, trackPayload, Packet.payloadPacketLen,
      length_pos_iff, ih, dropWhile_append]
    generalize arrivals.dropWhile _ = taken at ih ⊢
    by_cases off : cfg.maxPayloadTrackLen = 0
    · simp [off, ih]
    by_cases empty : a.packet.payload = []
    · have nothing : trackedBytes [] = [] := rfl
      cases taken <;> simp [off, empty, ih, nothing]
    · cases taken <;> cases granted : a.granted <;>
        simp [off, empty, granted, Nat.pos_of_ne_zero off, take_append] <;> omega

end Ndpi.Guarantees.FlowTracking
