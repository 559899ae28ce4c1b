import Ndpi.Source.Serialization.Items

/-!
# Lists, blocks and records

`ndpi_serializer.c:624-724,2234-2420`: the operations that open and close lists
and blocks, end a record or append one that is already formatted, and a call of
any operation of the interface as one value.
-/
namespace Ndpi.Source.Serialization
open Lib

/-- `ndpi_serialize_start_of_list_binary`. -/
def serializeStartOfListBinary (heap : Heap) (key : KeyArg) (s : Serializer) : Outcome :=
  match s.fmt with
  | .json =>
    (s.reserve heap (16 + key.klen)).andThen fun s =>
    (Serializer.emitAll [.escape key.bytes, .print [0x3A, 0x20, 0x5B]] (serializeJsonPre s)).andThen
      fun s => serializeJsonPost { s with status.flags.list := true, status.flags.sol := true }
  | .tlv =>
    (s.reserve heap (16 + key.klen)).andThen fun s =>
    ok (serializeSingleString (s.put (typeByte .unknown .startOfList)) key.bytes)
  | _ => failed s

/-- `ndpi_serialize_start_of_list`. -/
def serializeStartOfList (heap : Heap) (key : Bytes) (s : Serializer) : Outcome :=
  serializeStartOfListBinary heap (.ofString key) s

/-- `ndpi_serialize_end_of_list`: in JSON the bracket written last becomes the
list's own, by clearing the flags. -/
def serializeEndOfList (s : Serializer) : Outcome :=
  match s.fmt with
  | .json => ok { s with status.flags.sol := false, status.flags.list := false }
  | .tlv =>
    if s.status.used = s.buffer.size then failed s else ok (s.put (typeByte .unknown .endOfList))
  | _ => failed s

/-- `ndpi_serialize_start_of_block_binary`. -/
def serializeStartOfBlockBinary (heap : Heap) (key : KeyArg) (s : Serializer) : Outcome :=
  match s.fmt with
  | .json =>
    (s.reserve heap (16 + key.klen)).andThen fun s =>
    (Serializer.emitAll [.escape key.bytes, .print [0x3A, 0x20, 0x7B]] (serializeJsonPre s)).andThen
      fun s => (serializeJsonPost s).andThen fun s => ok { s with status.flags.sob := true }
  | .tlv =>
    (s.reserve heap (16 + key.klen)).andThen fun s =>
    ok (serializeSingleString (s.put (typeByte .unknown .startOfBlock)) key.bytes)
  | _ => failed s

/-- `ndpi_serialize_start_of_block`. -/
def serializeStartOfBlock (heap : Heap) (key : Bytes) (s : Serializer) : Outcome :=
  serializeStartOfBlockBinary heap (.ofString key) s

/-- The key of `ndpi_serialize_start_of_block_uint32`, whose buffer of eleven
characters always takes it. -/
def KeyArg.ofUint32 (key : UInt32) : KeyArg where
  memory := decimal key.toNat
  klen := (decimal key.toNat).length
  inside := Nat.le_refl _
  short :=
    have fits : key.toNat < 10 ^ 10 := Nat.lt_trans key.toNat_lt (by decide)
    Nat.lt_of_le_of_lt (decimal_length_le (by decide) fits) (by decide)

/-- `ndpi_serialize_start_of_block_uint32`. -/
def serializeStartOfBlockUint32 (heap : Heap) (key : UInt32) (s : Serializer) : Outcome :=
  serializeStartOfBlockBinary heap (.ofUint32 key) s

/-- `ndpi_serialize_end_of_block`. -/
def serializeEndOfBlock (heap : Heap) (s : Serializer) : Outcome :=
  match s.fmt with
  | .json =>
    (s.reserve heap 4).andThen fun s =>
    serializeJsonPost { s with status.flags.sob := false, status.flags.ceob := true }
  | .tlv => (s.reserve heap 4).andThen fun s => ok (s.put (typeByte .unknown .endOfBlock))
  | _ => failed s

/-- The JSON branch of `ndpi_serialize_end_of_record`. The first end of record
turns the leading blank into a bracket. -/
def endOfRecordJson (s : Serializer) : Serializer :=
  let s :=
    if s.multilineJsonArray then
      let s := s.put 0x0A
      s.storeAll s.status.used [0]
    else if s.status.flags.array then s
    else
      let s := s.storeAll 0 [0x5B]
      { s with buffer.data := snprintfAt s.buffer.data s.status.used s.buffDiff [0x5D] }.advance 1
  let s := { s with status.flags.array := true, status.flags.eor := true }
  { s with status.flags.comma := false }

/-- The CSV branch of `ndpi_serialize_end_of_record`. -/
def endOfRecordCsv (s : Serializer) : Serializer :=
  let s := s.put 0x0A
  let s := s.storeAll s.status.used [0]
  { s with status.flags.hdrDone := true, status.flags.eor := true }

/-- `ndpi_serialize_end_of_record`. -/
def serializeEndOfRecord (heap : Heap) (s : Serializer) : Outcome :=
  let needed := if s.fmt = .json ∨ s.fmt = .csv then 2 else 1
  (s.reserve heap needed).andThen fun s =>
  let s :=
    match s.fmt with
    | .json => endOfRecordJson s
    | .csv => endOfRecordCsv s
    | _ => s.put (typeByte .unknown .endOfRecord)
  ok { s with status.flags.notEmpty := false }

/-- A formatted record given by pointer and `u_int32_t` length. -/
structure RawRecord where
  bytes : Bytes
  short : bytes.length < 4294967296
  deriving DecidableEq, Repr

/-- `ndpi_serialize_raw_record`. The space needed is computed in 16 bits, the
JSON offset is moved before the space is reserved, and the room is the one from
before the move. -/
def serializeRawRecord (heap : Heap) (record : RawRecord) (s : Serializer) : Outcome :=
  let buffDiff := s.buffDiff
  let empty := s.status.used = if s.multilineJsonArray then 2 else 3
  let needed :=
    wrap16 (record.bytes.length + if s.fmt = .json then if empty then 1 else 3 else 0)
  let s :=
    if s.fmt = .json ∧ empty then
      { s with status.used := if s.multilineJsonArray then 0 else 2 }
    else s
  (if buffDiff < needed then
    match extendSerializerBuffer heap s.buffer (needed - buffDiff) with
    | some buffer => ok { s with buffer := buffer }
    | none => failed s
  else ok s).andThen fun s =>
  let s :=
    if s.fmt = .json ∧ s.multilineJsonArray = false then
      if empty then s.takeBack else s.storeAll (sub32 s.status.used 1) [0x2C]
    else s
  let s := s.append record.bytes
  let s :=
    if s.fmt = .json ∧ s.multilineJsonArray = false then
      let s := s.storeAll s.status.used [0x5D]
      if empty then s else s.advance 1
    else s
  ok (serializeEndOfRecord heap s).ser

inductive Key where
  | uint32 (key : UInt32)
  | binary (key : KeyArg)
  deriving DecidableEq, Repr

inductive Scalar where
  | uint32 (value : UInt32)
  | uint64 (value : UInt64)
  | int32 (value : Int32)
  | int64 (value : Int64)
  | float (value : FloatArg)
  | double (printed : Bytes)
  | binary (value : Blob)
  | boolean (value : UInt8)
  deriving DecidableEq, Repr

/-- `ndpi_serialize_uint32_*` and `ndpi_serialize_binary_*`. -/
def serializeKeyed (heap : Heap) : Key → Scalar → Serializer → Outcome
  | .uint32 key, .uint32 value => serializeUint32Uint32 heap key value
  | .uint32 key, .uint64 value => serializeUint32Uint64 heap key value
  | .uint32 key, .int32 value => serializeUint32Int32 heap key value
  | .uint32 key, .int64 value => serializeUint32Int64 heap key value
  | .uint32 key, .float value => serializeUint32Float heap key value
  | .uint32 key, .double printed => serializeUint32Double heap key printed
  | .uint32 key, .binary value => serializeUint32Binary heap key value
  | .uint32 key, .boolean value => serializeUint32Boolean heap key value
  | .binary key, .uint32 value => serializeBinaryUint32 heap key value
  | .binary key, .uint64 value => serializeBinaryUint64 heap key value
  | .binary key, .int32 value => serializeBinaryInt32 heap key value
  | .binary key, .int64 value => serializeBinaryInt64 heap key value
  | .binary key, .float value => serializeBinaryFloat heap key value
  | .binary key, .double printed => serializeBinaryDouble heap key printed
  | .binary key, .binary value => serializeBinaryBinary heap key value
  | .binary key, .boolean value => serializeBinaryBoolean heap key value

/-- One call of the interface. The functions that take NUL-terminated strings
are `item`, `startOfList` and `startOfBlock` at `KeyArg.ofString` and
`Blob.ofString`, except those that behave differently in CSV. -/
inductive Op where
  | item (key : Key) (value : Scalar)
  | stringInt32 (key : Bytes) (value : Int32)
  | stringStringLen (key : Bytes) (value : Blob)
  | stringRaw (key : Bytes) (value : Blob)
  | stringUint32Format (key : Bytes) (value : UInt32) (printed : Bytes)
  | startOfList (key : KeyArg)
  | endOfList
  | startOfBlock (key : KeyArg)
  | startOfBlockUint32 (key : UInt32)
  | endOfBlock
  | endOfRecord
  | rawRecord (record : RawRecord)
  deriving DecidableEq, Repr

def Op.apply (heap : Heap) : Op → Serializer → Outcome
  | .item key value => serializeKeyed heap key value
  | .stringInt32 key value => serializeStringInt32 heap key value
  | .stringStringLen key value => serializeStringStringLen heap key value
  | .stringRaw key value => serializeStringRaw heap key value
  | .stringUint32Format key value printed => serializeStringUint32Format heap key value printed
  | .startOfList key => serializeStartOfListBinary heap key
  | .endOfList => serializeEndOfList
  | .startOfBlock key => serializeStartOfBlockBinary heap key
  | .startOfBlockUint32 key => serializeStartOfBlockUint32 heap key
  | .endOfBlock => serializeEndOfBlock heap
  | .endOfRecord => serializeEndOfRecord heap
  | .rawRecord record => serializeRawRecord heap record

end Ndpi.Source.Serialization
