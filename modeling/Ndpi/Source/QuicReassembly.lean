import Ndpi.Lib.Bitmap
import Ndpi.Lib.Words

/-!
# Reassembly of CRYPTO frames

`protocols/quic.c:1066-1186`: the buffer of a flow in which the fragments of a
ClientHello are put together, the bitmap of its received positions and the test
that the message is complete.
-/
namespace Ndpi.Source.QuicReassembly
open Lib

def maxQuicReasmBufferLen : Nat := 4096

def quicReasmBufferBitmapLen : Nat := maxQuicReasmBufferLen / 8

/-- `update_reasm_buf_bitmap` of a bitmap that is not NULL. -/
def updateReasmBufBitmap (bufferBitmap : Bitmap) (bufferBitmapSize recvPos recvLen : Nat) :
    Bitmap :=
  if recvLen = 0 ∨ bufferBitmapSize = 0 ∨
      wrap32 (recvPos + recvLen) > wrap32 (bufferBitmapSize * 8) then bufferBitmap
  else
    let startByte := recvPos / 8
    let endByte := wrap32 (recvPos + recvLen - 1) / 8
    let startBit := recvPos % 8
    let endBit := wrap32 (startBit + recvLen - 1) % 8
    if startByte = endByte then
      let mask := ((1#32 <<< recvLen) - 1#32) <<< startBit
      bufferBitmap.modify startByte (· ||| mask.setWidth 8)
    else
      let filled := bufferBitmap.fillBytes (startByte + 1) (endByte - 1 - startByte)
      let startMask := ~~~((1#32 <<< startBit) - 1#32)
      let endMask := (1#32 <<< (endBit + 1)) - 1#32
      (filled.modify startByte (· ||| startMask.setWidth 8)).modify endByte
        (· ||| endMask.setWidth 8)

/-- `is_reasm_buf_complete` of a bitmap that is not NULL. -/
def isReasmBufComplete (bufferBitmap : Bitmap) (bufferLen : Nat) : Bool :=
  let completeBytes := bufferLen / 8
  let remainingBits := bufferLen % 8
  (List.range completeBytes).all (fun i => bufferBitmap[i]?.getD 0#8 == 255#8) &&
    (remainingBits == 0 ||
      (bufferBitmap[completeBytes]?.getD 0#8).setWidth 32 == (1#32 <<< remainingBits) - 1#32)

/-- `is_ch_complete`. -/
def isChComplete (buf : Bytes) (bufLen : Nat) : Bool :=
  let byte (i : Nat) := (buf[i]?.getD 0).toNat
  if 4 ≤ bufLen then 4 + (byte 1 * 65536 + byte 2 * 256 + byte 3) == bufLen else false

/-- The fields of a flow that the reassembler uses. -/
structure QuicFlow where
  quicReasmBuf : Option Memory
  quicReasmBufBitmap : Option Bitmap
  quicReasmBufLastPos : Nat
  deriving DecidableEq

/-- What the allocator does for one call: whether `ndpi_malloc` and `ndpi_calloc`
succeed and what the fresh buffer holds. -/
structure ReasmHeap where
  buffer : Bool
  bitmap : Bool
  fresh : Nat → UInt8

/-- The first part of `__reassemble`: allocation at the first fragment. -/
def allocateReasm (heap : ReasmHeap) (flow : QuicFlow) : QuicFlow :=
  match flow.quicReasmBuf with
  | some _ => flow
  | none =>
    let buf :=
      if heap.buffer then some ⟨(List.range maxQuicReasmBufferLen).map heap.fresh, []⟩ else none
    let bitmap :=
      match flow.quicReasmBufBitmap with
      | some bitmap => some bitmap
      | none =>
        if heap.bitmap then some (List.replicate quicReasmBufferBitmapLen 0#8) else none
    { quicReasmBuf := buf
      quicReasmBufBitmap := bitmap
      quicReasmBufLastPos :=
        if buf = none ∨ bitmap = none then flow.quicReasmBufLastPos else 0 }

/-- The rest of `__reassemble`, with the buffer in place. -/
def copyFragment (flow : QuicFlow) (buf : Memory) (frag : Bytes) (fragOffset lastPos : Nat) :
    QuicFlow where
  quicReasmBuf := some (buf.storeAll fragOffset frag)
  quicReasmBufBitmap := flow.quicReasmBufBitmap.map fun bitmap =>
    updateReasmBufBitmap bitmap quicReasmBufferBitmapLen (wrap32 fragOffset) (wrap32 frag.length)
  quicReasmBufLastPos :=
    if lastPos > flow.quicReasmBufLastPos then lastPos else flow.quicReasmBufLastPos

/-- `__reassemble`: the return code, the flow, and `*buf` and `*buf_len` when it
succeeds. -/
def reassemble (heap : ReasmHeap) (flow : QuicFlow) (frag : Bytes) (fragOffset : Nat) :
    Int × QuicFlow × Option (Memory × Nat) :=
  let lastPos := (fragOffset + frag.length) % 18446744073709551616
  let allocated := allocateReasm heap flow
  -- a flow that had its buffer is not checked for a bitmap
  match allocated.quicReasmBuf with
  | none => (-1, allocated, none)
  | some buf =>
    if flow.quicReasmBuf = none ∧ allocated.quicReasmBufBitmap = none then (-1, allocated, none)
    else if lastPos > maxQuicReasmBufferLen then (-3, allocated, none)
    else
      let copied := copyFragment allocated buf frag fragOffset lastPos
      (0, copied, some (buf.storeAll fragOffset frag, copied.quicReasmBufLastPos))

/-- `is_ch_reassembler_pending`. -/
def isChReassemblerPending (flow : QuicFlow) : Bool :=
  match flow.quicReasmBuf, flow.quicReasmBufBitmap with
  | none, _ => false
  | some _, none => true
  | some buf, some bitmap =>
    !(isReasmBufComplete bitmap flow.quicReasmBufLastPos &&
      isChComplete buf.cells flow.quicReasmBufLastPos)

/-- `get_reassembled_crypto_data`: the bytes returned, if any, and the flow. -/
def getReassembledCryptoData (heap : ReasmHeap) (flow : QuicFlow) (frag : Bytes)
    (fragOffset : Nat) : Option Bytes × QuicFlow :=
  if fragOffset = 0 ∧ isChComplete frag frag.length = true then (some frag, flow)
  else
    match reassemble heap flow frag fragOffset with
    | (_, flow, some (buf, len)) =>
      let complete :=
        match flow.quicReasmBufBitmap with
        | some bitmap => isReasmBufComplete bitmap len
        | none => false
      if complete && isChComplete buf.cells len then (some (buf.cells.take len), flow)
      else (none, flow)
    | (_, flow, none) => (none, flow)

end Ndpi.Source.QuicReassembly
