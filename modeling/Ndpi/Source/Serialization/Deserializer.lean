import Ndpi.Lib.Access
import Ndpi.Source.Serialization.Markers

/-!
# The TLV deserializer

`ndpi_serializer.c:539-615,2457-3138`. A deserializer is the same record as a
serializer, whose `status.buffer.size_used` is the read offset. The functions
that read the buffer return their result with the indices they read.
-/
namespace Ndpi.Source.Serialization
open Lib

/-- `deserializer->fmt = data[1]`; the codes beyond the enumeration are treated
alike by every function. -/
def SerializationFormat.ofCode (code : UInt8) : SerializationFormat :=
  match code with
  | 1 => .tlv
  | 2 => .json
  | 3 => .csv
  | 4 => .multilineJson
  | 5 => .innerJson
  | _ => .unknown

/-- `ndpi_init_deserializer_buf`; `none` is a NULL buffer. The reset at the end
writes to the buffer when its second byte selects JSON. -/
def initDeserializerBuf (d : Serializer) (data : Option Memory) (len : UInt32) : Outcome :=
  match data with
  | none => ⟨-3, d⟩
  | some data =>
    if len.toNat < 2 then failed d
    else
      let d := { d with buffer.data := data }
      if data.cells[0]?.getD 0 ≠ 1 then ⟨-2, d⟩
      else
        let d := { d with buffer.size := len.toNat }
        ok (resetSerializer { d with fmt := .ofCode (data.cells[1]?.getD 0) })

/-- `ndpi_init_deserializer`. -/
def initDeserializer (d s : Serializer) : Outcome :=
  initDeserializerBuf d (some s.buffer.data) (UInt32.ofNat s.status.used)

/-- The type a nibble of the type byte stands for. -/
def ItemType.ofNibble : Nat → ItemType
  | 1 => .endOfRecord
  | 2 => .uint8
  | 3 => .uint16
  | 4 => .uint32
  | 5 => .uint64
  | 6 => .int8
  | 7 => .int16
  | 8 => .int32
  | 9 => .int64
  | 10 => .float
  | 11 => .string
  | 12 => .startOfBlock
  | 13 => .endOfBlock
  | 14 => .startOfList
  | 15 => .endOfList
  | _ => .unknown

/-- `ndpi_deserialize_get_key_subtype`. -/
def deserializeGetKeySubtype (d : Serializer) : Access ItemType :=
  if d.buffer.size ≤ d.status.used then pure .unknown
  else do
    let type ← d.buffer.data.fetch d.status.used 1
    pure (.ofNibble (beNat type / 16))

/-- `ndpi_deserialize_get_value_subtype`. -/
def deserializeGetValueSubtype (d : Serializer) : Access ItemType :=
  if d.buffer.size ≤ d.status.used then pure .unknown
  else do
    let type ← d.buffer.data.fetch d.status.used 1
    pure (.ofNibble (beNat type % 16))

/-- The type reported for a stored one: the narrow integers are widened. -/
def ItemType.widened : ItemType → ItemType
  | .uint8 => .uint32
  | .uint16 => .uint32
  | .int8 => .int32
  | .int16 => .int32
  | type => type

/-- The same for a key type, which has no signed form. -/
def ItemType.widenedKey : ItemType → ItemType
  | .uint8 => .uint32
  | .uint16 => .uint32
  | type => type

/-- `ndpi_deserialize_get_item_type`: the key type and the value type. -/
def deserializeGetItemType (d : Serializer) : Access (ItemType × ItemType) := do
  let kt ← deserializeGetKeySubtype d
  let et ← deserializeGetValueSubtype d
  pure (kt.widenedKey, et.widened)

/-- `ndpi_deserialize_get_single_string_size`. -/
def deserializeGetSingleStringSize (d : Serializer) (offset : Nat) : Access Int :=
  let buffDiff := sub32 d.buffer.size offset
  if buffDiff < 2 then pure (-2)
  else do
    let strLen ← d.buffer.data.fetch offset 2
    let expected := wrap16 (2 + beNat strLen)
    if buffDiff < expected then pure (-2) else pure expected

/-- `ndpi_deserialize_get_single_size`. The string size passes through a
`u_int16_t`, which makes its error code -2 the size 65534. -/
def deserializeGetSingleSize (d : Serializer) (type : ItemType) (offset : Nat) : Access Int :=
  match type with
  | .uint8 | .int8 => pure 1
  | .uint16 | .int16 => pure 2
  | .uint32 | .int32 => pure 4
  | .uint64 | .int64 => pure 8
  | .float => pure 4
  | .double => pure 8
  | .string | .startOfBlock | .startOfList => do
    let size ← deserializeGetSingleStringSize d offset
    pure (toUint16 size)
  | .endOfRecord | .endOfBlock | .endOfList | .unknown => pure 0

/-- The key type and the size of the key, unless the function returns -2. -/
def locateKey (d : Serializer) : Access (Option (ItemType × Nat)) :=
  if d.buffDiff < 1 then pure none
  else do
    let kt ← deserializeGetKeySubtype d
    let size ← deserializeGetSingleSize d kt (wrap32 (d.status.used + 1))
    if size < 0 then pure none else pure (some (kt, size.toNat))

/-- The value type, the 16-bit offset of the value in the item and its size,
unless the function returns -2. -/
def locateValue (d : Serializer) : Access (Option (ItemType × Nat × Nat)) := do
  let key ← locateKey d
  match key with
  | none => pure none
  | some (_, keySize) =>
    let expected := wrap16 (1 + keySize)
    let et ← deserializeGetValueSubtype d
    let size ← deserializeGetSingleSize d et (wrap32 (d.status.used + expected))
    if size < 0 then pure none else pure (some (et, expected, size.toNat))

/-- `ndpi_deserialize_next`. -/
def deserializeNext (d : Serializer) : Access Outcome := do
  let value ← locateValue d
  match value with
  | none => pure ⟨-2, d⟩
  | some (_, expected, size) => pure (ok (d.advance (wrap16 (expected + size))))

/-- `ndpi_string`: the index in the buffer that `str` points to, or NULL. -/
structure NdpiString where
  str : Option Nat
  strLen : UInt16
  deriving DecidableEq, Repr

/-- `ndpi_deserialize_single_string`. -/
def deserializeSingleString (d : Serializer) (offset : Nat) : Access NdpiString := do
  let strLen ← d.buffer.data.fetch offset 2
  pure ⟨some (offset + 2), UInt16.ofNat (beNat strLen)⟩

/-- `ndpi_deserialize_key_uint32`; `none` leaves `*key` as it was. -/
def deserializeKeyUint32 (d : Serializer) : Access (Int × Option UInt32) := do
  let key ← locateKey d
  let offset := wrap32 (d.status.used + 1)
  match key with
  | none => pure (-2, none)
  | some (.uint32, _) => do
    let bytes ← d.buffer.data.fetch offset 4
    pure (0, some (UInt32.ofNat (beNat bytes)))
  | some (.uint16, _) => do
    let bytes ← d.buffer.data.fetch offset 2
    pure (0, some (UInt32.ofNat (beNat bytes)))
  | some (.uint8, _) => do
    let bytes ← d.buffer.data.fetch offset 1
    pure (0, some (UInt32.ofNat (beNat bytes)))
  | some _ => pure (-1, none)

/-- `ndpi_deserialize_key_string`, whatever the key type is. -/
def deserializeKeyString (d : Serializer) : Access (Int × NdpiString) := do
  let key ← locateKey d
  match key with
  | none => pure (-2, ⟨none, 0⟩)
  | some _ => do
    let string ← deserializeSingleString d (wrap32 (d.status.used + 1))
    pure (0, string)

/-- `ndpi_deserialize_value_uint32`, which gives 0 for any other type. -/
def deserializeValueUint32 (d : Serializer) : Access (Int × UInt32) := do
  let value ← locateValue d
  match value with
  | none => pure (-2, 0)
  | some (et, expected, _) =>
    let offset := wrap32 (d.status.used + expected)
    match et with
    | .uint32 => do
      let bytes ← d.buffer.data.fetch offset 4
      pure (0, UInt32.ofNat (beNat bytes))
    | .uint16 => do
      let bytes ← d.buffer.data.fetch offset 2
      pure (0, UInt32.ofNat (beNat bytes))
    | .uint8 => do
      let bytes ← d.buffer.data.fetch offset 1
      pure (0, UInt32.ofNat (beNat bytes))
    | _ => pure (0, 0)

/-- `ndpi_deserialize_value_uint64`; `none` leaves `*value` as it was. -/
def deserializeValueUint64 (d : Serializer) : Access (Int × Option UInt64) := do
  let value ← locateValue d
  match value with
  | none => pure (-2, none)
  | some (et, expected, _) =>
    if et ≠ .uint64 then do
      let (rc, v32) ← deserializeValueUint32 d
      pure (rc, some v32.toUInt64)
    else do
      let bytes ← d.buffer.data.fetch (wrap32 (d.status.used + expected)) 8
      pure (0, some (UInt64.ofNat (beNat bytes)))

/-- `ndpi_deserialize_value_int32`, which gives 0 for any other type. -/
def deserializeValueInt32 (d : Serializer) : Access (Int × Int32) := do
  let value ← locateValue d
  match value with
  | none => pure (-2, 0)
  | some (et, expected, _) =>
    let offset := wrap32 (d.status.used + expected)
    match et with
    | .int32 => do
      let bytes ← d.buffer.data.fetch offset 4
      pure (0, Int32.ofNat (beNat bytes))
    | .int16 => do
      let bytes ← d.buffer.data.fetch offset 2
      pure (0, (Int16.ofNat (beNat bytes)).toInt32)
    | .int8 => do
      let bytes ← d.buffer.data.fetch offset 1
      pure (0, (Int8.ofNat (beNat bytes)).toInt32)
    | _ => pure (0, 0)

/-- `ndpi_deserialize_value_int64`. -/
def deserializeValueInt64 (d : Serializer) : Access (Int × Int64) := do
  let value ← locateValue d
  match value with
  | none => pure (-2, 0)
  | some (et, expected, _) =>
    if et ≠ .int64 then do
      let (rc, v32) ← deserializeValueInt32 d
      pure (rc, v32.toInt64)
    else do
      let bytes ← d.buffer.data.fetch (wrap32 (d.status.used + expected)) 8
      pure (0, Int64.ofNat (beNat bytes))

/-- `ndpi_deserialize_value_float`: the bits of the value on a little-endian
host. -/
def deserializeValueFloat (d : Serializer) : Access (Int × UInt32) := do
  let value ← locateValue d
  match value with
  | none => pure (-2, 0)
  | some (et, expected, _) =>
    if et ≠ .float then pure (-1, 0)
    else do
      let bytes ← d.buffer.data.fetch (wrap32 (d.status.used + expected)) 4
      pure (0, UInt32.ofNat (beNat bytes.reverse))

/-- `ndpi_deserialize_value_double`. -/
def deserializeValueDouble (d : Serializer) : Access (Int × UInt64) := do
  let value ← locateValue d
  match value with
  | none => pure (-2, 0)
  | some (et, expected, _) =>
    if et ≠ .double then pure (-1, 0)
    else do
      let bytes ← d.buffer.data.fetch (wrap32 (d.status.used + expected)) 8
      pure (0, UInt64.ofNat (beNat bytes.reverse))

/-- `ndpi_deserialize_value_string`. -/
def deserializeValueString (d : Serializer) : Access (Int × NdpiString) := do
  let value ← locateValue d
  match value with
  | none => pure (-2, ⟨none, 0⟩)
  | some (et, expected, _) =>
    if et ≠ .string then pure (-1, ⟨none, 0⟩)
    else do
      let string ← deserializeSingleString d (wrap32 (d.status.used + expected))
      pure (0, string)

/-- `ndpi_deserialize_clone_item`. -/
def deserializeCloneItem (heap : Heap) (d s : Serializer) : Access Outcome :=
  if s.fmt ≠ .tlv then pure ⟨-3, s⟩
  else do
    let value ← locateValue d
    match value with
    | none => pure ⟨-2, s⟩
    | some (_, expected, size) =>
      let expected := wrap16 (expected + size)
      let grown := s.reserve heap expected
      if grown.rc ≠ 0 then pure grown
      else do
        let bytes ← d.buffer.data.fetch d.status.used expected
        pure (ok (grown.ser.append bytes))

end Ndpi.Source.Serialization
