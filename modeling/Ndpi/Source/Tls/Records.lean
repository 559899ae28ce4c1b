import Ndpi.Source.Tls.Dtls

/-!
# TLS records over TCP

`protocols/tls.c:1447-1676`: a segment is added to the message buffer and the
complete records at its start are taken off one by one; a handshake record is
split into its messages. The two nested loops are one transition function: its
states say at the head of which loop the execution is.
-/
namespace Ndpi.Source.Tls
open Lib

/-- `check_tls_type_and_version`. -/
def checkTlsTypeAndVersion (buf : Bytes) (bufLen : Nat) : Bool :=
  if bufLen ≥ 1 ∧ ¬(byteAt buf 0 ≥ 20 ∧ byteAt buf 0 ≤ 26) then false
  else if bufLen ≥ 2 ∧ byteAt buf 1 ≠ 0x03 then false
  else true

/-- What the function does to the flow beyond its own state, in order. -/
inductive TlsEffect where
  | handleBlockStat (recordType handshakeType : UInt8) (blockLen : Nat)
  | processHandshakeBlock (payload : Bytes)
  | looksLikeTls
  | addConnection
  | setAlert (alert : Bool)
  | fatalAlertRisk
  | certificateProcessed
  deriving DecidableEq, Repr

/-- What the function reads of the packet, the flow and the configuration.
`direction` is `packet_direction`, `fromClient` the result of
`current_pkt_from_client_to_server`. -/
structure TlsContext where
  direction : Fin 2
  fromClient : Bool
  tlsMaxNumBlocksToAnalyze : Nat

structure TlsState where
  buffer : Bytes
  bufferUsed : Nat
  changeCipherFromClient : Bool
  changeCipherFromServer : Bool
  appDataSeen : Vector Bool 2
  effects : List TlsEffect

namespace TlsState

def effect (st : TlsState) (e : TlsEffect) : TlsState := { st with effects := st.effects ++ [e] }

/-- The flag of the side the packet comes from. -/
def changeCipher (ctx : TlsContext) (st : TlsState) : Bool :=
  if ctx.fromClient then st.changeCipherFromClient else st.changeCipherFromServer

/-- The length of the record at the start of the buffer, with its header. -/
def recordLen (st : TlsState) : Nat := be16At st.buffer 3 + 5

end TlsState

/-- Where the execution is: at the head of the record loop, or at the head of the
loop over the messages of a handshake record of length `len`. -/
inductive TlsPhase where
  | records
  | blocks (len processed : Nat)
  deriving DecidableEq, Repr

/-- The end of an iteration of the record loop: the record is taken off the buffer.
The result of the loop is `something_went_wrong` and the state. -/
def endRecord (wrong : Bool) (len : Nat) (st : TlsState) :
    Turn (TlsPhase × TlsState) (Bool × TlsState) :=
  let left := sub32 st.bufferUsed len
  if left > 0 then
    let moved := (st.buffer.drop len).take left ++ st.buffer.drop left
    let st := { st with buffer := moved, bufferUsed := left }
    if wrong then .leave (wrong, st) else .stay (.records, st)
  else .leave (wrong, { st with bufferUsed := left })

/-- The branch for change-cipher-spec records. -/
def changeCipherSpecRecord (ctx : TlsContext) (st : TlsState) :
    Turn (TlsPhase × TlsState) (Bool × TlsState) :=
  if st.recordLen = 6 ∧ byteAt st.buffer 1 = 0x03 ∧ be16At st.buffer 3 = 1 then
    let seen := { st with
      changeCipherFromClient := st.changeCipherFromClient || ctx.fromClient
      changeCipherFromServer := st.changeCipherFromServer || !ctx.fromClient
      appDataSeen := st.appDataSeen.set ctx.direction true }.effect .addConnection
    -- the shortcut leaves the record in the buffer
    if ctx.tlsMaxNumBlocksToAnalyze = 0 then .leave (false, seen)
    else endRecord false st.recordLen seen
  else endRecord false st.recordLen st

/-- The branch for alert records. -/
def alertEffects (st : TlsState) : List TlsEffect :=
  let level := byteAt st.buffer 5
  [.setAlert true] ++
    (if st.recordLen = 7 ∧ (level = 1 ∨ level = 2) then
      if level = 2 then [.fatalAlertRisk] else [.setAlert false]
    else []) ++
    (if be16At st.buffer 3 = sub32 st.bufferUsed 5 then [.addConnection] else [])

/-- The branch for application data records. -/
def applicationDataEffects (ctx : TlsContext) (st : TlsState) : List TlsEffect :=
  let blockLen := be16At st.buffer 3
  (if blockLen < 16384 then [.looksLikeTls] else []) ++
    (if blockLen = sub32 st.bufferUsed 5 then [.addConnection] else []) ++
    (if st.appDataSeen[1 - ctx.direction] = true then [.certificateProcessed] else [])

/-- An iteration of the record loop, up to the loop over the messages of a
handshake record. -/
def recordBody (ctx : TlsContext) (st : TlsState) :
    Turn (TlsPhase × TlsState) (Bool × TlsState) :=
  if st.bufferUsed < 5 then .leave (false, st)
  else if checkTlsTypeAndVersion st.buffer (wrap16 st.bufferUsed) = false then .leave (true, st)
  else if st.recordLen > st.bufferUsed then .leave (false, st)
  else
    let type := byteAt st.buffer 0
    if type = handshakeRecord then
      if st.recordLen ≥ 9 then .stay (.blocks st.recordLen 5, st)
      else endRecord false st.recordLen st
    else
      let st := st.effect (.handleBlockStat type 0 (wrap16 (st.recordLen - 5)))
      if type = changeCipherSpec then changeCipherSpecRecord ctx st
      else if type = alertRecord then
        endRecord false st.recordLen { st with effects := st.effects ++ alertEffects st }
      else if type = applicationData then
        endRecord false st.recordLen { st with
          effects := st.effects ++ applicationDataEffects ctx st
          appDataSeen := st.appDataSeen.set ctx.direction true }
      else endRecord false st.recordLen st

/-- `packet->payload_packet_len = ndpi_min(block_len+4, message->buffer_used)`, an
unsigned 16-bit field. -/
def blockPayloadLen (st : TlsState) (processed : Nat) : Nat :=
  wrap16 (min (be24At st.buffer (processed + 1) + 4) st.bufferUsed)

/-- The calls made for one handshake message. -/
def blockEffects (st : TlsState) (processed : Nat) : List TlsEffect :=
  [.handleBlockStat handshakeRecord (byteAt st.buffer processed)
      (wrap16 (be24At st.buffer (processed + 1))),
    .processHandshakeBlock ((st.buffer.drop processed).take (blockPayloadLen st processed)),
    .looksLikeTls]

/-- An iteration of the loop over the messages of a handshake record. -/
def blockBody (ctx : TlsContext) (len processed : Nat) (st : TlsState) :
    Turn (TlsPhase × TlsState) (Bool × TlsState) :=
  if processed + 4 ≤ len then
    let blockLen := be24At st.buffer (processed + 1)
    let payloadLen := blockPayloadLen st processed
    if st.changeCipher ctx then
      endRecord false len (st.effect (.handleBlockStat handshakeRecord 0 (wrap16 (len - 5))))
    else if blockLen > len ∨ byteAt st.buffer (processed + 1) ≠ 0 then endRecord true len st
    else if processed + payloadLen > len then endRecord true len st
    else .stay (.blocks len (processed + payloadLen),
      { st with effects := st.effects ++ blockEffects st processed })
  else endRecord false len st

/-- The two loops of `ndpi_search_tls_tcp`. -/
def tlsBody (ctx : TlsContext) : TlsPhase × TlsState → Turn (TlsPhase × TlsState) (Bool × TlsState)
  | (.records, st) => recordBody ctx st
  | (.blocks len processed, st) => blockBody ctx len processed st

/-- The fields of a flow that last between its packets, for one direction. -/
structure TlsFlow where
  message : Message
  changeCipherFromClient : Bool
  changeCipherFromServer : Bool
  appDataSeen : Vector Bool 2
  effects : List TlsEffect

/-- A segment: `none` for a packet that is not TCP, else its sequence number. -/
structure TcpSegment where
  seq : Option Nat
  payload : Bytes
  retransmission : Bool

/-- How a call comes to its end: it returns early, or it runs its loops and goes on
to decide whether to keep dissecting. -/
inductive TlsOutcome where
  | returned (value : Nat)
  | dissected (somethingWentWrong : Bool)
  deriving DecidableEq, Repr

def TlsFlow.state (flow : TlsFlow) (buffer : Bytes) : TlsState :=
  ⟨buffer, flow.message.bufferUsed, flow.changeCipherFromClient, flow.changeCipherFromServer,
    flow.appDataSeen, flow.effects⟩

/-- The flow with what the loops have changed. -/
def TlsFlow.updated (flow : TlsFlow) (buffer : Memory) (st : TlsState) : TlsFlow where
  message := { flow.message with
    buffer := some { buffer with cells := st.buffer }, bufferUsed := st.bufferUsed }
  changeCipherFromClient := st.changeCipherFromClient
  changeCipherFromServer := st.changeCipherFromServer
  appDataSeen := st.appDataSeen
  effects := st.effects

/-- `ndpi_search_tls_tcp` up to the end of its loops, with fuel for these. -/
def searchTlsTcp (heap : MessageHeap) (ctx : TlsContext) (fuel : Nat) (flow : TlsFlow)
    (segment : TcpSegment) : Option (TlsOutcome × TlsFlow) :=
  match segment.seq with
  | none => some (.returned 0, flow)
  | some seq =>
    if segment.payload.length = 0 ∨ segment.retransmission then some (.returned 1, flow)
    else
      let (rc, message) := searchTlsMemory heap segment.payload seq flow.message
      let flow := { flow with message := message }
      match rc, message.buffer with
      | 0, some buffer =>
        (loop (tlsBody ctx) fuel (.records, flow.state buffer.cells)).map fun (wrong, st) =>
          (.dissected wrong, flow.updated buffer st)
      | _, _ => some (.returned 0, flow)

end Ndpi.Source.Tls
