import Ndpi.Lib.Access
import Ndpi.Source.Serialization.State
import Ndpi.Source.Tls.Records

/-!
# The TLS blocks of a flow

`ndpi_typedefs.h:836-893`, `ndpi_utils.c:5186-5226`, `protocols/tls.c:1312-1354` and
`ndpi_fingerprint.c:161-201`: the first blocks of a flow are listed in an array, and the
list is printed into a buffer and hashed.
-/
namespace Ndpi.Source.Tls.Blocks
open Lib Source.Serialization

/-- `ndpi_tls_block_type`. -/
inductive BlockType where
  | unknown
  | changeCipher
  | alert
  | handshakeEncryptedMessage
  | handshakeClientHello
  | handshakeServerHello
  | handshakeNewSessionTicket
  | handshakeEncryptedExtn
  | handshakeCertificate
  | handshakeServerKeyExchange
  | handshakeCertificateRequest
  | handshakeServerHelloDone
  | handshakeCertificateVerify
  | handshakeClientKeyExchange
  | handshakeFinished
  | applicationData
  | heartbeat
  deriving DecidableEq, Repr

def BlockType.code : BlockType → UInt8
  | .unknown => 0
  | .changeCipher => 1
  | .alert => 2
  | .handshakeEncryptedMessage => 3
  | .handshakeClientHello => 4
  | .handshakeServerHello => 5
  | .handshakeNewSessionTicket => 6
  | .handshakeEncryptedExtn => 7
  | .handshakeCertificate => 8
  | .handshakeServerKeyExchange => 9
  | .handshakeCertificateRequest => 10
  | .handshakeServerHelloDone => 11
  | .handshakeCertificateVerify => 12
  | .handshakeClientKeyExchange => 13
  | .handshakeFinished => 14
  | .applicationData => 15
  | .heartbeat => 16

/-- The types of handshake messages that have a block type of their own. -/
def encodeHandshakeType (handshakeType : UInt8) : BlockType :=
  match handshakeType.toNat with
  | 0 => .handshakeEncryptedMessage
  | 1 => .handshakeClientHello
  | 2 => .handshakeServerHello
  | 4 => .handshakeNewSessionTicket
  | 8 => .handshakeEncryptedExtn
  | 11 => .handshakeCertificate
  | 12 => .handshakeServerKeyExchange
  | 13 => .handshakeCertificateRequest
  | 14 => .handshakeServerHelloDone
  | 15 => .handshakeCertificateVerify
  | 16 => .handshakeClientKeyExchange
  | 20 => .handshakeFinished
  | _ => .unknown

/-- `ndpi_encode_tls_block_type`. -/
def encodeTlsBlockType (blockType handshakeType : UInt8) : BlockType :=
  match blockType.toNat with
  | 20 => .changeCipher
  | 21 => .alert
  | 22 => encodeHandshakeType handshakeType
  | 23 => .applicationData
  | 24 => .heartbeat
  | _ => .unknown

/-- `struct ndpi_tls_block`. -/
structure TlsBlock where
  blockType : UInt8
  len : Int16
  samePkt : Bool
  msecDelta : UInt16
  deriving DecidableEq

/-- The fields of `flow->l4.tcp.tls` for the blocks. -/
structure BlockStats where
  numTlsBlocks : UInt8
  lastTlsBlockTimeMs : UInt64
  tlsBlocks : Option (List TlsBlock)

/-- What is read of the configuration and the packet. `malloc` is the array that an
allocation gives. -/
structure StatContext where
  isTcp : Bool
  tlsMaxNumBlocksToAnalyze : Nat
  packetDirection : Fin 2
  currentTimeMs : UInt64
  malloc : Option (Nat → TlsBlock)

/-- The time since the last block, at most `0xFFFF`. -/
def msecDelta (ctx : StatContext) (st : BlockStats) : UInt16 :=
  let tdelta : UInt32 :=
    if st.lastTlsBlockTimeMs ≠ 0 then (ctx.currentTimeMs - st.lastTlsBlockTimeMs).toUInt32 else 0
  if tdelta > 0xFFFF then 0xFFFF else tdelta.toUInt16

/-- The array of blocks, which the first call allocates. -/
def allocateBlocks (ctx : StatContext) (st : BlockStats) : Option (List TlsBlock) :=
  match st.tlsBlocks with
  | some blocks => some blocks
  | none => ctx.malloc.map fun fresh => (List.range ctx.tlsMaxNumBlocksToAnalyze).map fresh

/-- The entry for a block. The pointer `same_packet` is `none` for `NULL`, else the value it
points at; what is stored in `same_pkt` is whether the pointer is not `NULL`. -/
def newBlock (ctx : StatContext) (samePacket : Option Bool) (recordType handshakeType : UInt8)
    (blockLen : UInt16) (st : BlockStats) : TlsBlock :=
  let blen : Int := if ctx.packetDirection.val = 1 then -(blockLen.toNat : Int) else blockLen.toNat
  ⟨(encodeTlsBlockType recordType handshakeType).code, Int16.ofInt blen, samePacket.isSome,
    msecDelta ctx st⟩

/-- `handleTLSBlockStat`, with the value that `same_packet` points at afterwards. -/
def handleTlsBlockStat (ctx : StatContext) (samePacket : Option Bool)
    (recordType handshakeType : UInt8) (blockLen : UInt16) (st : BlockStats) :
    Option Bool × BlockStats :=
  let seen := samePacket.map fun _ => true
  if ctx.isTcp ∧ ctx.tlsMaxNumBlocksToAnalyze ≠ 0 then
    match allocateBlocks ctx st with
    | none => (seen, st)
    | some blocks =>
      if st.numTlsBlocks.toNat < ctx.tlsMaxNumBlocksToAnalyze then
        let block := newBlock ctx samePacket recordType handshakeType blockLen st
        (seen, ⟨st.numTlsBlocks + 1, ctx.currentTimeMs,
          some (blocks.set st.numTlsBlocks.toNat block)⟩)
      else (seen, { st with tlsBlocks := some blocks })
  else (seen, st)

/-- One of the effects of `ndpi_search_tls_tcp`, for the blocks: the calls get the address of
its local variable `same_packet`. -/
def statEffect (ctx : StatContext) :
    Option Bool × BlockStats → TlsEffect → Option Bool × BlockStats
  | (samePacket, st), .handleBlockStat recordType handshakeType blockLen =>
    handleTlsBlockStat ctx samePacket recordType handshakeType (UInt16.ofNat blockLen) st
  | s, _ => s

/-- The effects of one call of `ndpi_search_tls_tcp`, at whose start `same_packet` is
false. -/
def packetStats (ctx : StatContext) (effects : List TlsEffect) (st : BlockStats) : BlockStats :=
  (effects.foldl (statEffect ctx) (some false, st)).2

/-- `"%s%u=%d"` for a block. -/
def blockText (first : Bool) (block : TlsBlock) : Bytes :=
  (if first then [] else [0x2C]) ++ decimal block.blockType.toNat ++
    0x3D :: decimalInt block.len.toInt

/-- The loop over the blocks, from the block with this index on. The position has 16 bits,
the size that is left 32. -/
def printBlocks (fpBufLen : Nat) : Nat → Nat → Memory → List TlsBlock → Nat × Memory
  | _, idx, fpBuf, [] => (idx, fpBuf)
  | i, idx, fpBuf, block :: rest =>
    let text := blockText (i = 0) block
    let fpBuf := snprintfAt fpBuf idx (sub32 (sub32 fpBufLen idx) 1) text
    if text.length > 0 then printBlocks fpBufLen (i + 1) (wrap16 (idx + text.length)) fpBuf rest
    else (idx, fpBuf)

def hexDigit (n : Nat) : UInt8 := UInt8.ofNat (if n < 10 then 48 + n else 87 + n)

/-- `"%02x"`. -/
def hexByte (b : UInt8) : Bytes := [hexDigit (b.toNat / 16), hexDigit (b.toNat % 16)]

/-- `ndpi_compute_tls_blocks_flow_fingerprint`: the text that is returned and the buffer,
with the indices of the buffer that are hashed. -/
def computeTlsBlocksFlowFingerprint (sha256 : Bytes → Bytes) (isTcp : Bool)
    (blocks : List TlsBlock) (fpBuf : Memory) (fpBufLen : Nat) : Access (Bytes × Memory) :=
  if isTcp = false ∨ blocks.length = 0 then pure ([], fpBuf)
  else do
    let (idx, fpBuf) := printBlocks fpBufLen 0 0 (fpBuf.store 0 0) blocks
    let text ← fpBuf.fetch 0 idx
    let shaHash := sha256 text
    let hex := (List.range 16).flatMap fun i => hexByte (byteAt shaHash i)
    pure (hex, snprintfAt fpBuf 0 (sub32 fpBufLen 1) hex)

end Ndpi.Source.Tls.Blocks
