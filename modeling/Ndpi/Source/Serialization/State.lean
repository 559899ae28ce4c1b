import Ndpi.Lib.Words

/-!
# Serializer state

`ndpi_typedefs.h:1452-1527` and `ndpi_serializer.c:170-457,2424-2452`: the private
serializer record, buffer growth, initialisation, the buffer getter and the
snapshot functions. Sizes and offsets are naturals with the 32-bit wrap written
out; a store outside the allocation is recorded by `Memory`. Strings are byte
lists; a C string argument is the memory it points at up to a terminating NUL
that follows the list.
-/
namespace Ndpi.Source.Serialization
open Lib

inductive SerializationFormat where
  | unknown | tlv | json | csv | multilineJson | innerJson
  deriving DecidableEq, Repr

/-- `(u_int8_t) fmt`. -/
def SerializationFormat.code : SerializationFormat → UInt8
  | .unknown => 0
  | .tlv => 1
  | .json => 2
  | .csv => 3
  | .multilineJson => 4
  | .innerJson => 5

/-- The bits `NDPI_SERIALIZER_STATUS_*` of `status.flags`. -/
structure StatusFlags where
  comma : Bool := false
  array : Bool := false
  eor : Bool := false
  sob : Bool := false
  notEmpty : Bool := false
  list : Bool := false
  sol : Bool := false
  hdrDone : Bool := false
  ceob : Bool := false
  deriving DecidableEq, Repr

/-- `used` and `headerUsed` are `buffer.size_used` and `header.size_used`. -/
structure SerializerStatus where
  flags : StatusFlags
  used : Nat
  headerUsed : Nat
  deriving DecidableEq, Repr

structure SerializerBuffer where
  initialSize : Nat
  size : Nat
  data : Memory
  deriving DecidableEq, Repr

structure Serializer where
  status : SerializerStatus
  buffer : SerializerBuffer
  header : SerializerBuffer
  fmt : SerializationFormat
  csvSeparator : UInt8
  hasSnapshot : Bool
  multilineJsonArray : Bool
  innerJson : Bool
  snapshot : SerializerStatus
  deriving DecidableEq, Repr

/-- The allocator during one call: which requests it grants and what the bytes
it adds contain. -/
structure Heap where
  grants : Nat → Bool
  fresh : Nat → UInt8

/-- A call's return value and the serializer it leaves. -/
structure Outcome where
  rc : Int
  ser : Serializer
  deriving DecidableEq, Repr

def ok (s : Serializer) : Outcome := ⟨0, s⟩

def failed (s : Serializer) : Outcome := ⟨-1, s⟩

/-- `if(step != 0) return(-1);` followed by the rest of the function. -/
def Outcome.andThen (o : Outcome) (rest : Serializer → Outcome) : Outcome :=
  if o.rc = 0 then rest o.ser else o

def defaultHeaderSize : Nat := 1024
def defaultBufferSize : Nat := 256
def defaultBufferIncr : Nat := 1024

/-- `u_int32_t buff_diff = buffer.size - status.buffer.size_used`. -/
def Serializer.buffDiff (s : Serializer) : Nat := sub32 s.buffer.size s.status.used

def Serializer.storeAll (s : Serializer) (index : Nat) (bytes : Bytes) : Serializer :=
  { s with buffer.data := s.buffer.data.storeAll index bytes }

def Serializer.advance (s : Serializer) (count : Nat) : Serializer :=
  { s with status.used := wrap32 (s.status.used + count) }

/-- `buffer.data[status.buffer.size_used++] = byte`. -/
def Serializer.put (s : Serializer) (byte : UInt8) : Serializer :=
  (s.storeAll s.status.used [byte]).advance 1

/-- `memcpy` to the end of the used part, which then includes the copy. -/
def Serializer.append (s : Serializer) (bytes : Bytes) : Serializer :=
  (s.storeAll s.status.used bytes).advance bytes.length

/-- `status.buffer.size_used--`. -/
def Serializer.takeBack (s : Serializer) : Serializer :=
  { s with status.used := sub32 s.status.used 1 }

/-- `snprintf` at `index` with `room` bytes: as much of the text as fits, then a
NUL, and nothing at all without room. -/
def snprintfAt (m : Memory) (index room : Nat) (text : Bytes) : Memory :=
  if room = 0 then m else m.storeAll index (text.take (room - 1) ++ [0])

/-- The part of the buffer in use. -/
def Serializer.text (s : Serializer) : Bytes := s.buffer.data.cells.take s.status.used

/-- `strlen`, for memory with a NUL right after the list. -/
def strlen (memory : Bytes) : Nat := (memory.takeWhile (· ≠ 0)).length

def extendedSize (b : SerializerBuffer) (minLen : Nat) : Nat :=
  let minLen :=
    if minLen < defaultBufferIncr then
      if b.initialSize < defaultBufferIncr then
        if minLen < b.initialSize then b.initialSize else minLen
      else defaultBufferIncr
    else minLen
  let newSize := wrap32 (b.size + minLen)
  wrap32 ((newSize / 4 + 1) * 4)

/-- `ndpi_extend_serializer_buffer`; `none` is its return value -1. -/
def extendSerializerBuffer (heap : Heap) (b : SerializerBuffer) (minLen : Nat) :
    Option SerializerBuffer :=
  let newSize := extendedSize b minLen
  if heap.grants newSize then
    some { b with size := newSize, data := b.data.resize heap.fresh newSize }
  else none

/-- The growth prologue every operation starts with. -/
def Serializer.reserve (s : Serializer) (heap : Heap) (needed : Nat) : Outcome :=
  if s.buffDiff < needed then
    match extendSerializerBuffer heap s.buffer (needed - s.buffDiff) with
    | some buffer => ok { s with buffer := buffer }
    | none => failed s
  else ok s

/-- `ndpi_reset_serializer`. The JSON text starts with a blank that becomes the
opening bracket once records are separated. -/
def resetSerializer (s : Serializer) : Serializer :=
  let s := { s with status.flags := {} }
  match s.fmt with
  | .json =>
    let s := { s with status.used := 0 }
    let s := if s.multilineJsonArray then s else s.put 0x20
    if s.innerJson then s
    else
      let data := snprintfAt s.buffer.data s.status.used s.buffDiff [0x7B, 0x7D]
      { s with buffer.data := data }.advance 2
  | .csv => { s with status.headerUsed := 0, status.used := 0 }
  | _ => { s with status.used := 2 }

/-- `ndpi_init_serializer_buffer`: zeroed memory, or nothing. -/
def initSerializerBuffer (heap : Heap) (size : Nat) : Option SerializerBuffer :=
  if heap.grants size then some ⟨size, size, ⟨List.replicate size 0, []⟩⟩ else none

def noBuffer : SerializerBuffer := ⟨0, 0, ⟨[], []⟩⟩

def noStatus : SerializerStatus := ⟨{}, 0, 0⟩

/-- `ndpi_init_serializer_ll`; `none` is its return value -1. -/
def initSerializerLl (heap : Heap) (fmt : SerializationFormat) (bufferSize : UInt32) :
    Option Serializer :=
  let multiline := fmt == .multilineJson
  let inner := fmt == .innerJson
  let fmt := if multiline || inner then .json else fmt
  if bufferSize.toNat < 3 then none
  else
    match initSerializerBuffer heap bufferSize.toNat with
    | none => none
    | some buffer =>
      let s : Serializer := ⟨noStatus, buffer, noBuffer, fmt, 0x2C, false, multiline, inner, noStatus⟩
      match fmt with
      | .json => some (resetSerializer s)
      | .csv =>
        match initSerializerBuffer heap defaultHeaderSize with
        | none => none
        | some header => some (resetSerializer { s with header := header })
      | _ => some (resetSerializer (s.storeAll 0 [1, fmt.code]))

/-- `ndpi_init_serializer`. -/
def initSerializer (heap : Heap) (fmt : SerializationFormat) : Option Serializer :=
  initSerializerLl heap fmt 256

def isBlank (b : UInt8) : Bool := b == 0 || b == 0x20

/-- `ndpi_serializer_get_buffer`: the bytes from the returned pointer up to the
returned length. -/
def serializerGetBuffer (s : Serializer) : Bytes :=
  let data := if s.status.used < s.buffer.size then s.buffer.data.store s.status.used 0
    else s.buffer.data
  if s.fmt = .json then
    let skipped := (data.cells.takeWhile isBlank).length
    (data.cells.drop skipped).take (sub32 s.status.used skipped)
  else data.cells.take s.status.used

/-- `ndpi_serializer_create_snapshot`. -/
def serializerCreateSnapshot (s : Serializer) : Serializer :=
  { s with snapshot := s.status, hasSnapshot := true }

/-- `ndpi_serializer_rollback_snapshot`: the saved offsets and flags, and the
characters a later operation is expected to have overwritten. -/
def serializerRollbackSnapshot (s : Serializer) : Serializer :=
  if s.hasSnapshot then
    let s := { s with status := s.snapshot, hasSnapshot := false }
    if s.fmt = .json then
      let last := sub32 s.status.used 1
      if s.status.flags.array then
        if s.multilineJsonArray then s else s.storeAll last [0x5D]
      else
        let s := if s.multilineJsonArray then s else s.storeAll 0 [0x20]
        if s.innerJson then s else s.storeAll last [0x7D]
    else s
  else s

end Ndpi.Source.Serialization
