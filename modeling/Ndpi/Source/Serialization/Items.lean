import Ndpi.Source.Serialization.Json

/-!
# Scalar operations

`ndpi_serializer.c:72-81,299-357,464-535,728-740,818-2230`: every operation that
writes one key and one value, in the three output formats. The operations differ
in the space they reserve, the text or bytes of their value and the form of
their key; `serializeItem` is what they share.
-/
namespace Ndpi.Source.Serialization
open Lib

/-- `ndpi_serialization_type`. -/
inductive ItemType where
  | unknown | endOfRecord | uint8 | uint16 | uint32 | uint64 | int8 | int16 | int32 | int64
  | float | string | startOfBlock | endOfBlock | startOfList | endOfList | double
  deriving DecidableEq, Repr

def ItemType.code : ItemType → Nat
  | .unknown => 0
  | .endOfRecord => 1
  | .uint8 => 2
  | .uint16 => 3
  | .uint32 => 4
  | .uint64 => 5
  | .int8 => 6
  | .int16 => 7
  | .int32 => 8
  | .int64 => 9
  | .float => 10
  | .string => 11
  | .startOfBlock => 12
  | .endOfBlock => 13
  | .startOfList => 14
  | .endOfList => 15
  | .double => 16

/-- `(kt << 4) | et`. -/
def typeByte (kt et : ItemType) : UInt8 := UInt8.ofNat (kt.code * 16 + et.code)

/-- A key given by pointer and length. `memory` goes on to the next NUL after
the pointer, which may lie beyond the key. -/
structure KeyArg where
  memory : Bytes
  klen : Nat
  inside : klen ≤ memory.length
  short : klen < 65536
  deriving DecidableEq, Repr

def KeyArg.bytes (key : KeyArg) : Bytes := key.memory.take key.klen

/-- `key, strlen(key)` passed for a `u_int16_t` length. -/
def KeyArg.ofString (key : Bytes) : KeyArg where
  memory := key
  klen := wrap16 (strlen key)
  inside := Nat.le_trans (Nat.mod_le _ _) (List.takeWhile_prefix _).length_le
  short := wrap16_lt _

/-- A value given by pointer and `u_int16_t` length. -/
structure Blob where
  bytes : Bytes
  short : bytes.length < 65536
  deriving DecidableEq, Repr

def Blob.ofString (value : Bytes) : Blob where
  bytes := value.take (wrap16 (strlen value))
  short := Nat.lt_of_le_of_lt (List.length_take_le _ _) (wrap16_lt _)

/-- A floating point argument: its four bytes as a word, and what `printf` makes
of it with the format given. -/
structure FloatArg where
  bits : UInt32
  printed : Bytes
  deriving DecidableEq, Repr

/-- `ndpi_is_number`, true also of an empty key. -/
def isNumber (key : Bytes) : Bool := key.all isDigit

def isCSpace (b : UInt8) : Bool := (9 ≤ b && b ≤ 13) || b == 32

/-- `atoi` as `strtol` narrowed to `int`, passed on as a `u_int32_t`. -/
def atoi (memory : Bytes) : UInt32 :=
  let text := memory.dropWhile isCSpace
  let negative := text.head? == some 45
  let digits := if text.head? == some 45 || text.head? == some 43 then text.tail else text
  let value := digitsValue (digits.takeWhile isDigit)
  if negative then UInt32.ofNat (4294967296 - min value 9223372036854775808 % 4294967296)
  else UInt32.ofNat (min value 9223372036854775807)

/-- `needed += extra` for JSON. -/
def Serializer.jsonRoom (s : Serializer) (extra : Nat) : Nat := if s.fmt = .json then extra else 0

/-- `ndpi_serializer_check_header_room`: -1, or the room as an `int`. -/
def serializerCheckHeaderRoom (heap : Heap) (s : Serializer) (needed : Nat) : Int × Serializer :=
  let buffDiff := sub32 s.header.size s.status.headerUsed
  if buffDiff < needed then
    match extendSerializerBuffer heap s.header (needed - buffDiff) with
    | some header => (toInt32 (sub32 header.size s.status.headerUsed), { s with header := header })
    | none => (-1, s)
  else (toInt32 buffDiff, s)

/-- `csv_separator` as a string. -/
def Serializer.separatorText (s : Serializer) : Bytes :=
  if s.csvSeparator = 0 then [] else [s.csvSeparator]

/-- `ndpi_serializer_header_uint32`. -/
def serializerHeaderUint32 (heap : Heap) (key : UInt32) (s : Serializer) : Outcome :=
  if s.status.flags.hdrDone then ok s
  else
    let (room, s) := serializerCheckHeaderRoom heap s 12
    if room < 0 then failed s
    else
      let text := (if 0 < s.status.headerUsed then s.separatorText else []) ++ decimal key.toNat
      let data := snprintfAt s.header.data s.status.headerUsed room.toNat text
      let used := wrap32 (s.status.headerUsed + text.length)
      ok { s with header.data := data, status.headerUsed := used }

/-- `ndpi_serializer_header_string`. -/
def serializerHeaderString (heap : Heap) (key : Bytes) (s : Serializer) : Outcome :=
  if s.status.flags.hdrDone then ok s
  else
    let (room, s) := serializerCheckHeaderRoom heap s (key.length + 4)
    if room < 0 then failed s
    else
      let text := (if 0 < s.status.headerUsed then s.separatorText else []) ++ key
      let data := s.header.data.storeAll s.status.headerUsed text
      let used := wrap32 (s.status.headerUsed + text.length)
      ok { s with header.data := data.storeAll used [0], status.headerUsed := used }

/-- `ndpi_serialize_csv_pre`. -/
def serializeCsvPre (s : Serializer) : Serializer :=
  let s :=
    if s.status.flags.eor then { s with status.flags.eor := false }
    else if !s.status.flags.notEmpty then s
    else if s.status.used < s.buffer.size then s.put s.csvSeparator
    else s
  { s with status.flags.notEmpty := true }

/-- The CSV branch: the column name, the separator and the printed value. -/
def csvItem (header : Serializer → Outcome) (text : Bytes) (s : Serializer) : Outcome :=
  (header s).andThen fun s => (serializeCsvPre s).emit (.print text)

/-- `ndpi_serialize_single_string`. -/
def serializeSingleString (s : Serializer) (bytes : Bytes) : Serializer :=
  (s.append (beBytes 2 bytes.length)).append bytes

/-- `ndpi_serialize_key_uint32`. -/
def serializeKeyUint32 (s : Serializer) (key : UInt32) : ItemType × Serializer :=
  if key.toNat ≤ 0xFF then (.uint8, s.append (beBytes 1 key.toNat))
  else if key.toNat ≤ 0xFFFF then (.uint16, s.append (beBytes 2 key.toNat))
  else (.uint32, s.append (beBytes 4 key.toNat))

/-- The TLV branch under an integer key; the type byte is filled in last. -/
def tlvUint32Item (key : UInt32) (et : ItemType) (value : Serializer → Serializer)
    (s : Serializer) : Outcome :=
  let typeOffset := s.status.used
  let (kt, s) := serializeKeyUint32 (s.advance 1) key
  ok ((value s).storeAll typeOffset [typeByte kt et])

/-- The TLV branch under a string key. -/
def tlvStringItem (key : KeyArg) (et : ItemType) (value : Serializer → Serializer)
    (s : Serializer) : Outcome :=
  ok (value (serializeSingleString (s.put (typeByte .string et)) key.bytes))

/-- The narrowest type for an unsigned value and its bytes. -/
def uint32Field (value : UInt32) : ItemType × Bytes :=
  if value.toNat ≤ 0xFF then (.uint8, beBytes 1 value.toNat)
  else if value.toNat ≤ 0xFFFF then (.uint16, beBytes 2 value.toNat)
  else (.uint32, beBytes 4 value.toNat)

/-- An `int32_t` as the `u_int32_t` that is stored. -/
def int32Word (value : Int32) : Nat := value.toUInt32.toNat

/-- The narrowest type for a signed value and its bytes. -/
def int32Field (value : Int32) : ItemType × Bytes :=
  if value.toInt ≤ 127 ∧ -128 ≤ value.toInt then (.int8, beBytes 1 (int32Word value))
  else if value.toInt ≤ 32767 ∧ -32768 ≤ value.toInt then (.int16, beBytes 2 (int32Word value))
  else (.int32, beBytes 4 (int32Word value))

/-- `(value & 0xFFFFFFFF) == value` for a signed 64-bit value. -/
def fitsWord (value : Int64) : Bool := value.toInt % 4294967296 == value.toInt

/-- A `float` as its bytes lie in memory on a little-endian host. -/
def floatField (value : FloatArg) : Bytes := (beBytes 4 value.bits.toNat).reverse

/-- What the scalar operations share: reserve space, write in the serializer's
format, mark the record as not empty. -/
def serializeItem (heap : Heap) (needed : Nat) (json csv tlv : Serializer → Outcome)
    (s : Serializer) : Outcome :=
  (s.reserve heap needed).andThen fun s =>
  (match s.fmt with
    | .json => json s
    | .csv => csv s
    | _ => tlv s).andThen fun s => ok { s with status.flags.notEmpty := true }

def uint32Key (key : UInt32) : List Chunk := [.print (0x22 :: decimal key.toNat ++ [0x22, 0x3A])]

def stringKey (key : KeyArg) : List Chunk := [.escape key.bytes, .put 0x3A]

/-- `ndpi_serialize_uint32_uint32`. -/
def serializeUint32Uint32 (heap : Heap) (key value : UInt32) (s : Serializer) : Outcome :=
  serializeItem heap (9 + s.jsonRoom 24)
    (jsonItem (uint32Key key) [.print (decimal value.toNat)])
    (csvItem (serializerHeaderUint32 heap key) (decimal value.toNat))
    (tlvUint32Item key (uint32Field value).1 (·.append (uint32Field value).2)) s

/-- `ndpi_serialize_uint32_uint64`. -/
def serializeUint32Uint64 (heap : Heap) (key : UInt32) (value : UInt64) (s : Serializer) :
    Outcome :=
  serializeItem heap (13 + s.jsonRoom 32)
    (jsonItem (uint32Key key) [.print (decimal value.toNat)])
    (csvItem (serializerHeaderUint32 heap key) (decimal value.toNat))
    (if value.toNat ≤ 0xFFFFFFFF then serializeUint32Uint32 heap key value.toUInt32
      else tlvUint32Item key .uint64 (·.append (beBytes 8 value.toNat))) s

/-- `ndpi_serialize_uint32_int32`. -/
def serializeUint32Int32 (heap : Heap) (key : UInt32) (value : Int32) (s : Serializer) : Outcome :=
  serializeItem heap (9 + s.jsonRoom 24)
    (jsonItem (uint32Key key) [.print (decimalInt value.toInt)])
    (csvItem (serializerHeaderUint32 heap key) (decimalInt value.toInt))
    (tlvUint32Item key (int32Field value).1 (·.append (int32Field value).2)) s

/-- `ndpi_serialize_uint32_int64`. -/
def serializeUint32Int64 (heap : Heap) (key : UInt32) (value : Int64) (s : Serializer) : Outcome :=
  serializeItem heap (13 + s.jsonRoom 32)
    (jsonItem (uint32Key key) [.print (decimalInt value.toInt)])
    (csvItem (serializerHeaderUint32 heap key) (decimalInt value.toInt))
    (if fitsWord value then serializeUint32Int32 heap key value.toInt32
      else tlvUint32Item key .int64 (·.append (beBytes 8 value.toUInt64.toNat))) s

/-- `ndpi_serialize_uint32_float`. -/
def serializeUint32Float (heap : Heap) (key : UInt32) (value : FloatArg) (s : Serializer) :
    Outcome :=
  serializeItem heap (41 + s.jsonRoom 32)
    (jsonItem (uint32Key key) [.print value.printed])
    (csvItem (serializerHeaderUint32 heap key) value.printed)
    (tlvUint32Item key .float (·.append (floatField value))) s

/-- `ndpi_serialize_uint32_double`; TLV has no type for it. -/
def serializeUint32Double (heap : Heap) (key : UInt32) (printed : Bytes) (s : Serializer) :
    Outcome :=
  serializeItem heap (45 + s.jsonRoom 32)
    (jsonItem (uint32Key key) [.print printed])
    (csvItem (serializerHeaderUint32 heap key) printed) failed s

/-- `ndpi_serialize_uint32_binary`; `%.*s` stops at a NUL. -/
def serializeUint32Binary (heap : Heap) (key : UInt32) (value : Blob) (s : Serializer) : Outcome :=
  serializeItem heap (7 + value.bytes.length + s.jsonRoom (24 + value.bytes.length * 2))
    (jsonItem (uint32Key key) [.escape value.bytes])
    (csvItem (serializerHeaderUint32 heap key) (value.bytes.takeWhile (· ≠ 0)))
    (tlvUint32Item key .string (serializeSingleString · value.bytes)) s

/-- `ndpi_serialize_uint32_string`. -/
def serializeUint32String (heap : Heap) (key : UInt32) (value : Bytes) (s : Serializer) : Outcome :=
  serializeUint32Binary heap key (.ofString value) s

def booleanText (value : UInt8) : Bytes :=
  if value = 0 then [0x66, 0x61, 0x6C, 0x73, 0x65] else [0x74, 0x72, 0x75, 0x65]

/-- `ndpi_serialize_uint32_boolean`. -/
def serializeUint32Boolean (heap : Heap) (key : UInt32) (value : UInt8) (s : Serializer) : Outcome :=
  if s.fmt = .json ∨ s.fmt = .csv then
    serializeItem heap 24
      (jsonItem (uint32Key key) [.print (booleanText value)])
      (csvItem (serializerHeaderUint32 heap key) (booleanText value)) ok s
  else failed s

/-- `ndpi_serialize_binary_int32`. -/
def serializeBinaryInt32 (heap : Heap) (key : KeyArg) (value : Int32) (s : Serializer) : Outcome :=
  if isNumber key.bytes then serializeUint32Int32 heap (atoi key.memory) value s
  else
    serializeItem heap (7 + key.klen + s.jsonRoom (16 + key.klen))
      (jsonItem (stringKey key) [.print (decimalInt value.toInt)])
      (csvItem (serializerHeaderString heap key.bytes) (decimalInt value.toInt))
      (tlvStringItem key (int32Field value).1 (·.append (int32Field value).2)) s

/-- `ndpi_serialize_string_int32`. The CSV shortcut prints with `%u` and sets no
flag of its own. -/
def serializeStringInt32 (heap : Heap) (key : Bytes) (value : Int32) (s : Serializer) : Outcome :=
  if s.fmt = .csv then
    (s.reserve heap 12).andThen fun s =>
    (serializerHeaderString heap (KeyArg.ofString key).bytes s).andThen fun s =>
    (serializeCsvPre s).emit (.print (decimal (int32Word value)))
  else serializeBinaryInt32 heap (.ofString key) value s

/-- `ndpi_serialize_binary_int64`. A value that fits a word is handed to the
string function, which measures the key again. -/
def serializeBinaryInt64 (heap : Heap) (key : KeyArg) (value : Int64) (s : Serializer) : Outcome :=
  if isNumber key.bytes then serializeUint32Int64 heap (atoi key.memory) value s
  else
    serializeItem heap (11 + key.klen + s.jsonRoom (16 + key.klen))
      (jsonItem (stringKey key) [.print (decimalInt value.toInt)])
      (csvItem (serializerHeaderString heap key.bytes) (decimalInt value.toInt))
      (if fitsWord value then serializeStringInt32 heap key.memory value.toInt32
        else tlvStringItem key .int64 (·.append (beBytes 8 value.toUInt64.toNat))) s

/-- `ndpi_serialize_string_int64`. -/
def serializeStringInt64 (heap : Heap) (key : Bytes) (value : Int64) (s : Serializer) : Outcome :=
  serializeBinaryInt64 heap (.ofString key) value s

/-- `ndpi_serialize_binary_uint32`. The CSV shortcut comes before the numeric
key test and copies the digits unchecked. -/
def serializeBinaryUint32 (heap : Heap) (key : KeyArg) (value : UInt32) (s : Serializer) : Outcome :=
  if s.fmt = .csv then
    (s.reserve heap ((decimal value.toNat).length + 1)).andThen fun s =>
    (serializerHeaderString heap key.bytes s).andThen fun s =>
    ok ((serializeCsvPre s).append (decimal value.toNat))
  else if isNumber key.bytes then serializeUint32Uint32 heap (atoi key.memory) value s
  else
    serializeItem heap (43 + key.klen)
      (jsonItem (stringKey key) [.print (decimal value.toNat)]) ok
      (tlvStringItem key (uint32Field value).1 (·.append (uint32Field value).2)) s

/-- `ndpi_serialize_string_uint32`. -/
def serializeStringUint32 (heap : Heap) (key : Bytes) (value : UInt32) (s : Serializer) : Outcome :=
  serializeBinaryUint32 heap (.ofString key) value s

/-- `ndpi_serialize_binary_uint64`. -/
def serializeBinaryUint64 (heap : Heap) (key : KeyArg) (value : UInt64) (s : Serializer) : Outcome :=
  if isNumber key.bytes then serializeUint32Uint64 heap (atoi key.memory) value s
  else
    serializeItem heap (11 + key.klen + s.jsonRoom (16 + key.klen))
      (jsonItem (stringKey key) [.print (decimal value.toNat)])
      (csvItem (serializerHeaderString heap key.bytes) (decimal value.toNat))
      (if value.toNat ≤ 0xFFFFFFFF then serializeStringUint32 heap key.memory value.toUInt32
        else tlvStringItem key .uint64 (·.append (beBytes 8 value.toNat))) s

/-- `ndpi_serialize_string_uint64`. -/
def serializeStringUint64 (heap : Heap) (key : Bytes) (value : UInt64) (s : Serializer) : Outcome :=
  serializeBinaryUint64 heap (.ofString key) value s

/-- `ndpi_serialize_binary_float`. -/
def serializeBinaryFloat (heap : Heap) (key : KeyArg) (value : FloatArg) (s : Serializer) :
    Outcome :=
  if isNumber key.bytes then serializeUint32Float heap (atoi key.memory) value s
  else
    serializeItem heap (39 + key.klen + s.jsonRoom (32 + key.klen))
      (jsonItem (stringKey key) [.print value.printed])
      (csvItem (serializerHeaderString heap key.bytes) value.printed)
      (tlvStringItem key .float (·.append (floatField value))) s

/-- `ndpi_serialize_string_float`. -/
def serializeStringFloat (heap : Heap) (key : Bytes) (value : FloatArg) (s : Serializer) : Outcome :=
  serializeBinaryFloat heap (.ofString key) value s

/-- `ndpi_serialize_binary_double`, without the numeric key test. -/
def serializeBinaryDouble (heap : Heap) (key : KeyArg) (printed : Bytes) (s : Serializer) :
    Outcome :=
  serializeItem heap (43 + key.klen + s.jsonRoom (32 + key.klen))
    (jsonItem (stringKey key) [.print printed])
    (csvItem (serializerHeaderString heap key.bytes) printed) failed s

/-- `ndpi_serialize_string_double`. -/
def serializeStringDouble (heap : Heap) (key : Bytes) (printed : Bytes) (s : Serializer) : Outcome :=
  serializeBinaryDouble heap (.ofString key) printed s

/-- `ndpi_serialize_binary_raw`. -/
def serializeBinaryRaw (heap : Heap) (key : KeyArg) (value : Blob) (escape : Bool)
    (s : Serializer) : Outcome :=
  serializeItem heap
    (5 + key.klen + value.bytes.length + s.jsonRoom (16 + key.klen + value.bytes.length))
    (jsonItem (stringKey key) [if escape then .escape value.bytes else .copy value.bytes])
    (fun s => (serializerHeaderString heap key.bytes s).andThen fun s =>
      ok ((serializeCsvPre s).append value.bytes))
    (tlvStringItem key .string (serializeSingleString · value.bytes)) s

/-- `ndpi_serialize_binary_binary`. -/
def serializeBinaryBinary (heap : Heap) (key : KeyArg) (value : Blob) (s : Serializer) : Outcome :=
  if isNumber key.bytes then serializeUint32Binary heap (atoi key.memory) value s
  else serializeBinaryRaw heap key value true s

/-- `ndpi_serialize_string_binary`. -/
def serializeStringBinary (heap : Heap) (key : Bytes) (value : Blob) (s : Serializer) : Outcome :=
  serializeBinaryBinary heap (.ofString key) value s

/-- `ndpi_serialize_string_string_len`. The CSV shortcut counts in 16 bits. -/
def serializeStringStringLen (heap : Heap) (key : Bytes) (value : Blob) (s : Serializer) : Outcome :=
  if s.fmt = .csv then
    let needed := wrap16 (value.bytes.length + 1)
    (s.reserve heap needed).andThen fun s =>
    (serializerHeaderString heap (KeyArg.ofString key).bytes s).andThen fun s =>
    ok ((serializeCsvPre s).append value.bytes)
  else serializeBinaryBinary heap (.ofString key) value s

/-- `ndpi_serialize_string_string`. -/
def serializeStringString (heap : Heap) (key value : Bytes) (s : Serializer) : Outcome :=
  serializeStringStringLen heap key (.ofString value) s

/-- `ndpi_serialize_string_uint32_format`; `printed` is the value in the format
given, cut to the 15 characters of its buffer. -/
def serializeStringUint32Format (heap : Heap) (key : Bytes) (value : UInt32) (printed : Bytes)
    (s : Serializer) : Outcome :=
  if s.fmt = .json then serializeStringUint32 heap key value s
  else serializeStringString heap key (printed.take 15) s

/-- `ndpi_serialize_string_raw`. -/
def serializeStringRaw (heap : Heap) (key : Bytes) (value : Blob) (s : Serializer) : Outcome :=
  serializeBinaryRaw heap (.ofString key) value false s

/-- `ndpi_serialize_binary_boolean`; the CSV column name is measured again. -/
def serializeBinaryBoolean (heap : Heap) (key : KeyArg) (value : UInt8) (s : Serializer) : Outcome :=
  if s.fmt = .json ∨ s.fmt = .csv then
    if isNumber key.bytes then serializeUint32Boolean heap (atoi key.memory) value s
    else
      serializeItem heap (key.klen + 16)
        (jsonItem (stringKey key) [.print (booleanText value)])
        (csvItem (serializerHeaderString heap (KeyArg.ofString key.memory).bytes)
          (booleanText value)) ok s
  else failed s

/-- `ndpi_serialize_string_boolean`. -/
def serializeStringBoolean (heap : Heap) (key : Bytes) (value : UInt8) (s : Serializer) : Outcome :=
  serializeBinaryBoolean heap (.ofString key) value s

end Ndpi.Source.Serialization
