import Ndpi.Lib.Loop
import Ndpi.Source.Tls.Message

/-!
# DTLS records

`protocols/tls.c:1737-1931`: the loop over the records of one datagram.
-/
namespace Ndpi.Source.Tls
open Lib

def byteAt (buf : Bytes) (i : Nat) : UInt8 := buf[i]?.getD 0

def be16At (buf : Bytes) (i : Nat) : Nat := (byteAt buf i).toNat * 256 + (byteAt buf (i + 1)).toNat

def be24At (buf : Bytes) (i : Nat) : Nat := (byteAt buf i).toNat * 65536 + be16At buf (i + 1)

/-- The content types of a record. -/
def changeCipherSpec : UInt8 := 0x14
def alertRecord : UInt8 := 0x15
def handshakeRecord : UInt8 := 0x16
def applicationData : UInt8 := 0x17

/-- `is_dtls`: the length of the block at the start of `buf`, if it is one. -/
def isDtls (buf : Bytes) (bufLen : Nat) : Option Nat :=
  let knownType := byteAt buf 0 = handshakeRecord ∨ byteAt buf 0 = changeCipherSpec ∨
    byteAt buf 0 = applicationData ∨ byteAt buf 0 = alertRecord
  let knownVersion := (byteAt buf 1 = 0xfe ∧ byteAt buf 2 = 0xff) ∨
    (byteAt buf 1 = 0xfe ∧ byteAt buf 2 = 0xfd) ∨ (byteAt buf 1 = 0xfe ∧ byteAt buf 2 = 0xfc) ∨
    (byteAt buf 1 = 0x01 ∧ byteAt buf 2 = 0x00)
  let blockLen := be16At buf 11
  if bufLen ≤ 13 then none
  else if ¬knownType ∨ ¬knownVersion then none
  else if blockLen = 0 ∨ blockLen + 12 ≥ bufLen then none
  else some blockLen

/-- A UDP payload: its length is an unsigned 16-bit number. -/
structure Datagram where
  payload : Bytes
  small : payload.length < 65536

/-- What the loop asks of the rest of the library: the allocator at each call of
`ndpi_search_tls_memory`, and `certificate_processed` after each call of
`processHandshakeTLSBlock`. -/
structure DtlsEnv where
  heap : Nat → MessageHeap
  certificateAfter : Bytes → Bool → Bool

structure DtlsState where
  processed : Nat
  noDtls : Bool
  changeCipherFound : Bool
  /-- The local `message` is not NULL. -/
  pending : Bool
  message : Message
  certificateProcessed : Bool
  fatalAlert : Bool
  detected : Bool
  memoryCalls : Nat
  handshakeBlocks : List Bytes

/-- The call of `processHandshakeTLSBlock` with this payload. -/
def DtlsState.processHandshake (env : DtlsEnv) (st : DtlsState) (payload : Bytes) : DtlsState :=
  { st with
    certificateProcessed := env.certificateAfter payload st.certificateProcessed
    handshakeBlocks := st.handshakeBlocks ++ [payload] }

/-- `processed += block_len + 13`, in 16 bits. -/
def DtlsState.advance (st : DtlsState) (blockLen : Nat) : DtlsState :=
  { st with processed := wrap16 (st.processed + (blockLen + 13)) }

/-- `no_dtls = 1, break`. -/
def DtlsState.reject (st : DtlsState) : Turn DtlsState DtlsState := .leave { st with noDtls := true }

/-- A fragment of a handshake message, the first one with its header, is added to
the message buffer. -/
def dtlsAddFragment (env : DtlsEnv) (block : Bytes) (st : DtlsState) : Int × DtlsState :=
  let fragOff := be24At block 19
  let fragLen := be24At block 22
  let (payload, seq) :=
    if fragOff = 0 then ((block.drop 13).take (fragLen + 12), fragOff)
    else ((block.drop (13 + 12)).take fragLen, fragOff + 12)
  let (rc, message) := searchTlsMemory (env.heap st.memoryCalls) payload seq st.message
  (rc, { st with message := message, memoryCalls := st.memoryCalls + 1 })

/-- The reassembled message is handed over and the buffer freed. -/
def DtlsState.flush (env : DtlsEnv) (st : DtlsState) : DtlsState :=
  let buffer := (st.message.buffer.map (·.cells)).getD []
  { st.processHandshake env (buffer.take (wrap16 st.message.bufferUsed)) with
    message := Message.cleared, pending := false }

/-- The branch for handshake records that hold a part of a message. -/
def dtlsFragment (env : DtlsEnv) (block : Bytes) (blockLen handshakeLen : Nat) (st : DtlsState) :
    Turn DtlsState DtlsState :=
  if be24At block 22 + 12 > blockLen then st.reject
  else
    match dtlsAddFragment env block st with
    | (rc, st) =>
      if rc = -1 then st.reject
      else if handshakeLen + 12 = st.message.bufferUsed then .stay ((st.flush env).advance blockLen)
      else .stay (st.advance blockLen)

/-- The branch for handshake records. -/
def dtlsHandshake (env : DtlsEnv) (pLen : Nat) (block : Bytes) (blockLen : Nat) (st : DtlsState) :
    Turn DtlsState DtlsState :=
  if st.processed + blockLen + 13 > pLen then st.reject
  else if blockLen > 24 then
    let handshakeLen := be24At block 14
    let st := { st with pending := true }
    if handshakeLen + 12 = blockLen then
      .stay ((st.processHandshake env ((block.drop 13).take blockLen)).advance blockLen)
    else if handshakeLen + 12 > blockLen then dtlsFragment env block blockLen handshakeLen st
    else st.reject
  else .stay (st.advance blockLen)

/-- The branches on the content type of a block. -/
def dtlsRecord (env : DtlsEnv) (pLen : Nat) (block : Bytes) (blockLen : Nat) (st : DtlsState) :
    Turn DtlsState DtlsState :=
  if byteAt block 0 = handshakeRecord then dtlsHandshake env pLen block blockLen st
  else if byteAt block 0 = changeCipherSpec then
    .leave { st.advance blockLen with changeCipherFound := true, certificateProcessed := true }
  else if byteAt block 0 = alertRecord then
    .stay ({ st with
      fatalAlert := st.fatalAlert || (blockLen == 2 && byteAt block 13 == 2) }.advance blockLen)
  else .leave { st.advance blockLen with detected := true, certificateProcessed := true }

/-- One iteration of the loop of `ndpi_search_dtls`. The length of a block is
compared with that of the whole payload. -/
def dtlsBody (env : DtlsEnv) (p : Bytes) (st : DtlsState) : Turn DtlsState DtlsState :=
  if st.processed + 13 < p.length then
    match isDtls (p.drop st.processed) p.length with
    | none => st.reject
    | some blockLen => dtlsRecord env p.length (p.drop st.processed) blockLen st
  else .leave st

/-- The state in which the loop is entered. -/
def dtlsStart (message : Message) (certificateProcessed : Bool) : DtlsState :=
  ⟨0, false, false, false, message, certificateProcessed, false, false, 0, []⟩

/-- The return value of `ndpi_search_dtls` after the loop. -/
def dtlsReturn (pLen : Nat) (st : DtlsState) : Nat :=
  let noDtls := st.noDtls ||
    (st.processed != pLen && !st.pending && !st.changeCipherFound)
  if noDtls || st.changeCipherFound || st.certificateProcessed then 0 else 1

/-- `ndpi_search_dtls`, with fuel for its loop. -/
def searchDtls (env : DtlsEnv) (fuel : Nat) (d : Datagram) (message : Message)
    (certificateProcessed : Bool) : Option (Nat × DtlsState) :=
  (loop (dtlsBody env d.payload) fuel (dtlsStart message certificateProcessed)).map
    fun st => (dtlsReturn d.payload.length st, st)

end Ndpi.Source.Tls
