import Ndpi.Lib.Words

/-!
# The TLS message buffer

`ndpi_typedefs.h:690-694` and `protocols/tls.c:468-541`: the buffer of a flow and
direction in which records are put together.
-/
namespace Ndpi.Source.Tls
open Lib

/-- `message_t`; the counters are unsigned 32-bit integers. -/
structure Message where
  buffer : Option Memory
  bufferLen : Nat
  bufferUsed : Nat
  nextSeq : Nat
  deriving DecidableEq

/-- `memset(message, '\0', sizeof(*message))`. -/
def Message.cleared : Message := ⟨none, 0, 0, 0⟩

/-- What the allocator does for one call: whether `ndpi_malloc` and `ndpi_realloc`
succeed and what fresh memory holds. -/
structure MessageHeap where
  malloc : Bool
  realloc : Bool
  fresh : Nat → UInt8

def firstBufferLen : Nat := 2048

/-- The last part of `ndpi_search_tls_memory`: the payload is copied if it is the
one expected next. -/
def appendPayload (payload : Bytes) (seq : Nat) (buffer : Memory) (message : Message) : Message :=
  let availBytes := sub32 message.bufferLen message.bufferUsed
  if payload.length > 0 ∧ availBytes ≥ payload.length then
    if message.nextSeq = 0 ∨ seq = message.nextSeq then
      { message with
        buffer := some (buffer.storeAll message.bufferUsed payload)
        bufferUsed := wrap32 (message.bufferUsed + payload.length)
        nextSeq := wrap32 (seq + payload.length) }
    else message
  else message

/-- The middle of `ndpi_search_tls_memory`: the buffer is enlarged if the payload
does not fit. -/
def enlargeAndAppend (heap : MessageHeap) (payload : Bytes) (seq : Nat) (buffer : Memory)
    (message : Message) : Int × Message :=
  let availBytes := sub32 message.bufferLen message.bufferUsed
  if availBytes < payload.length then
    let newLen := wrap32 (sub32 (wrap32 (message.bufferLen + payload.length)) availBytes + 1)
    if heap.realloc then
      let newBuf := buffer.resize heap.fresh newLen
      (0, appendPayload payload seq newBuf
        { message with buffer := some newBuf, bufferLen := newLen })
    else (-1, message)
  else (0, appendPayload payload seq buffer message)

/-- `ndpi_search_tls_memory`. -/
def searchTlsMemory (heap : MessageHeap) (payload : Bytes) (seq : Nat) (message : Message) :
    Int × Message :=
  match message.buffer with
  | some buffer => enlargeAndAppend heap payload seq buffer message
  | none =>
    let message := { message with bufferLen := firstBufferLen, bufferUsed := 0 }
    if heap.malloc then
      let buffer := ⟨(List.range firstBufferLen).map heap.fresh, []⟩
      enlargeAndAppend heap payload seq buffer { message with buffer := some buffer }
    else (-1, message)

end Ndpi.Source.Tls
