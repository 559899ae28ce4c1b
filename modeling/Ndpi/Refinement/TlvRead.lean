import Ndpi.Refinement.TlvItem
import Ndpi.Source.Serialization.Clone

/-!
# Reading an item back

What the deserializer functions return at an offset where an encoded item
stands: its types, key, value and size. The sizes are computed by the source in
16 bits, so the item must be shorter than `2 ^ 16` bytes.
-/
namespace Ndpi.Refinement
open Lib Source.Serialization List Access Memory

/-- The deserializer stands at the start of `item`, with `before` already read. -/
structure Reading (d : Serializer) (before : Bytes) (item : Item) (after : Bytes) : Prop where
  cells : d.buffer.data.cells = before ++ item.encode ++ after
  position : d.status.used = before.length
  inside : before.length + item.encode.length ≤ d.buffer.size
  small : d.buffer.size < 4294967296
  short : item.encode.length < 65536

/-- A field's bytes have the length its type stands for. -/
def Sized (field : ItemType × Bytes) : Prop :=
  match field.1 with
  | .uint8 | .int8 => field.2.length = 1
  | .uint16 | .int16 => field.2.length = 2
  | .uint32 | .int32 | .float => field.2.length = 4
  | .uint64 | .int64 | .double => field.2.length = 8
  | .string | .startOfBlock | .startOfList => ∃ content : Blob, field.2 = stringField content.bytes
  | .endOfRecord | .endOfBlock | .endOfList | .unknown => field.2.length = 0

lemma uint32Field_cases (value : UInt32) :
    (uint32Field value = (.uint8, beBytes 1 value.toNat) ∧ value.toNat < 256 ^ 1) ∨
    (uint32Field value = (.uint16, beBytes 2 value.toNat) ∧ value.toNat < 256 ^ 2) ∨
    (uint32Field value = (.uint32, beBytes 4 value.toNat) ∧ value.toNat < 256 ^ 4) := by
  unfold uint32Field
  split
  · next byte =>
    exact .inl ⟨rfl, Nat.lt_succ_of_le byte⟩
  · split
    · next short =>
      exact .inr (.inl ⟨rfl, Nat.lt_succ_of_le short⟩)
    · exact .inr (.inr ⟨rfl, value.toNat_lt⟩)

/-- The three signed widths, each with what the reader makes of its bytes. -/
lemma int32Field_cases (value : Int32) :
    (int32Field value = (.int8, beBytes 1 (int32Word value)) ∧
      (Int8.ofNat (int32Word value % 256 ^ 1)).toInt32 = value) ∨
    (int32Field value = (.int16, beBytes 2 (int32Word value)) ∧
      (Int16.ofNat (int32Word value % 256 ^ 2)).toInt32 = value) ∨
    (int32Field value = (.int32, beBytes 4 (int32Word value)) ∧
      Int32.ofNat (int32Word value % 256 ^ 4) = value) := by
  have signed : value.toInt = (int32Word value : Int).bmod 4294967296 :=
    BitVec.toInt_eq_toNat_bmod value.toBitVec
  have word : int32Word value < 4294967296 := value.toUInt32.toNat_lt
  unfold int32Field
  split
  · next byte =>
    refine .inl ⟨rfl, Int32.toInt_inj.mp ?_⟩
    rw [Int8.toInt_toInt32, Int8.toInt_ofNat', signed]
    rw [signed] at byte
    exact bmod_narrow _ (.inl rfl) byte.2 (Int.lt_of_le_sub_one byte.1)
  · split
    · next short =>
      refine .inr (.inl ⟨rfl, Int32.toInt_inj.mp ?_⟩)
      rw [Int16.toInt_toInt32, Int16.toInt_ofNat', signed]
      rw [signed] at short
      exact bmod_narrow _ (.inr rfl) short.2 (Int.lt_of_le_sub_one short.1)
    · refine .inr (.inr ⟨rfl, Int32.toInt_inj.mp ?_⟩)
      have low : int32Word value % 256 ^ 4 = int32Word value := Nat.mod_eq_of_lt word
      rw [Int32.toInt_ofNat', signed, low]

lemma uint32Field_sized : Sized (uint32Field value) := by
  rcases uint32Field_cases value with ⟨form, -⟩ | ⟨form, -⟩ | ⟨form, -⟩ <;>
    (rw [form]; exact beBytes_length _ _)

lemma int32Field_sized : Sized (int32Field value) := by
  rcases int32Field_cases value with ⟨form, -⟩ | ⟨form, -⟩ | ⟨form, -⟩ <;>
    (rw [form]; exact beBytes_length _ _)

lemma key_sized (item : Item) : Sized item.key := by
  cases item with
  | field key value =>
    cases key with
    | uint32 key => exact uint32Field_sized
    | string key => exact ⟨key, rfl⟩
  | _ => rfl

lemma value_sized (item : Item) : Sized item.value := by
  cases item with
  | field key value =>
    cases value with
    | uint32 value => exact uint32Field_sized
    | uint64 value large => exact beBytes_length 8 _
    | int32 value => exact int32Field_sized
    | int64 value wide => exact beBytes_length 8 _
    | float bits => exact (length_reverse).trans (beBytes_length 4 _)
    | string value => exact ⟨value, rfl⟩
  | startOfBlock key => exact ⟨key, rfl⟩
  | startOfList key => exact ⟨key, rfl⟩
  | _ => rfl

lemma stringField_length : (stringField bytes).length = 2 + bytes.length := by
  simp [stringField]

/-- The two length bytes of a string field read back. -/
lemma fetch_stringField {d : Serializer} {before after : Bytes}
    (cells : d.buffer.data.cells = before ++ stringField content ++ after)
    (position : before.length = offset) (short : content.length < 65536) :
    beNat (d.buffer.data.fetch offset 2).val = content.length := by
  have field := fetch_val d.buffer.data offset before (beBytes 2 content.length)
    (content ++ after) (by rw [cells, stringField]; simp) position
  rw [beBytes_length] at field
  rw [field, beNat_beBytes_of_lt short]

/-- The size function agrees with the length of the field it stands before. -/
lemma getSingleSize_field (d : Serializer) (offset : Nat) (before after : Bytes)
    (field : ItemType × Bytes) (cells : d.buffer.data.cells = before ++ field.2 ++ after)
    (position : before.length = offset) (inside : offset + field.2.length ≤ d.buffer.size)
    (short : field.2.length < 65536) (sized : Sized field) :
    (deserializeGetSingleSize d field.1 offset).val = field.2.length := by
  have string : ∀ content : Blob, field.2 = stringField content.bytes →
      (toUint16 (deserializeGetSingleStringSize d offset).val : Int) = field.2.length := by
    intro content same
    rw [same] at cells inside short ⊢
    rw [stringField_length] at inside short ⊢
    have length := fetch_stringField cells position content.short
    have room : sub32 d.buffer.size offset = d.buffer.size - offset := sub32_of_le (by omega)
    simp only [deserializeGetSingleStringSize, room]
    rw [if_neg (by omega)]
    simp only [bind_val, length, wrap16_of_lt short]
    rw [if_neg (by omega)]
    simp only [pure_val, toUint16_of_lt short]
  obtain ⟨type, bytes⟩ := field
  cases type
  case string => exact sized.elim fun content same => string content same
  case startOfBlock => exact sized.elim fun content same => string content same
  case startOfList => exact sized.elim fun content same => string content same
  all_goals exact congrArg Int.ofNat sized.symm

lemma ofNibble_code (nibble : type.code < 16) : ItemType.ofNibble type.code = type := by
  cases type <;> first | rfl | exact absurd nibble (by decide)

lemma typeByte_toNat (key : kt.code < 16) (value : et.code < 16) :
    (typeByte kt et).toNat = kt.code * 16 + et.code := by
  rw [typeByte, UInt8.toNat_ofNat']
  omega

/-- The types of fields fit a nibble; only `double`, which is never stored, does
not. -/
lemma nibble_of_ne_double {type : ItemType} (stored : type ≠ .double) : type.code < 16 := by
  cases type <;> first | decide | exact absurd rfl stored

lemma key_nibble (item : Item) : item.key.1.code < 16 := by
  apply nibble_of_ne_double
  cases item with
  | field key value =>
    cases key with
    | uint32 key =>
      rcases uint32Field_cases key with ⟨form, -⟩ | ⟨form, -⟩ | ⟨form, -⟩ <;>
        simp [Item.key, ItemKey.field, form]
    | string key => simp [Item.key, ItemKey.field]
  | _ => simp [Item.key]

lemma value_nibble (item : Item) : item.value.1.code < 16 := by
  apply nibble_of_ne_double
  cases item with
  | field key value =>
    cases value with
    | uint32 value =>
      rcases uint32Field_cases value with ⟨form, -⟩ | ⟨form, -⟩ | ⟨form, -⟩ <;>
        simp [Item.value, ItemValue.field, form]
    | int32 value =>
      rcases int32Field_cases value with ⟨form, -⟩ | ⟨form, -⟩ | ⟨form, -⟩ <;>
        simp [Item.value, ItemValue.field, form]
    | _ => simp [Item.value, ItemValue.field]
  | _ => simp [Item.value]

/-- `string` points at `content` in the buffer. -/
structure PointsAt (d : Serializer) (string : NdpiString) (content : Bytes) : Prop where
  length : string.strLen.toNat = content.length
  memory : ∃ rest, string.memory d = content ++ rest

lemma singleString_pointsAt (d : Serializer) (offset : Nat) (before content after : Bytes)
    (cells : d.buffer.data.cells = before ++ stringField content ++ after)
    (position : before.length = offset) (short : content.length < 65536) :
    PointsAt d (deserializeSingleString d offset).val content := by
  have length := fetch_stringField cells position short
  have strLen : (UInt16.ofNat (beNat (d.buffer.data.fetch offset 2).val)).toNat =
      content.length := by
    rw [length, UInt16.toNat_ofNat']
    exact Nat.mod_eq_of_lt short
  have start : (before ++ beBytes 2 content.length).length = offset + 2 := by
    rw [length_append, position, beBytes_length]
  have rest : d.buffer.data.cells.drop (offset + 2) = content ++ after := by
    rw [cells, stringField, ← start, ← append_assoc, append_assoc, drop_left]
  refine ⟨strLen, after ++ List.replicate (content.length - (content ++ after).length) 0, ?_⟩
  simp [deserializeSingleString, NdpiString.memory, strLen, rest]

lemma PointsAt.key (points : PointsAt d string content.bytes) :
    KeyArg.blob (.ofNdpiString string d) = content := by
  obtain ⟨rest, memory⟩ := points.memory
  obtain ⟨bytes, short⟩ := content
  simp [KeyArg.blob, KeyArg.bytes, KeyArg.ofNdpiString, memory, points.length]

lemma PointsAt.value (points : PointsAt d string content.bytes) :
    Blob.ofNdpiString string d = content := by
  obtain ⟨rest, memory⟩ := points.memory
  obtain ⟨bytes, short⟩ := content
  simp [Blob.ofNdpiString, memory, points.length]

variable {d : Serializer} {before after : Bytes} {item : Item}
  (reading : Reading d before item after)
include reading

lemma Reading.typeByte_fetch :
    (d.buffer.data.fetch d.status.used 1).val = [typeByte item.key.1 item.value.1] := by
  apply fetch_val d.buffer.data d.status.used before [typeByte item.key.1 item.value.1]
    (item.key.2 ++ item.value.2 ++ after)
  · rw [reading.cells, Item.encode]
    simp
  · exact reading.position.symm

omit reading in
lemma encode_length (item : Item) :
    item.encode.length = 1 + item.key.2.length + item.value.2.length := by
  simp only [Item.encode, length_cons, length_append]
  omega

lemma Reading.used_lt : d.status.used < d.buffer.size := by
  have inside := reading.inside
  have length := encode_length item
  rw [reading.position]
  omega

lemma Reading.keySubtype : (deserializeGetKeySubtype d).val = item.key.1 := by
  have key := key_nibble item
  have value := value_nibble item
  rw [deserializeGetKeySubtype, if_neg (not_le.mpr reading.used_lt)]
  simp only [bind_val, pure_val, reading.typeByte_fetch]
  have byte : beNat [typeByte item.key.1 item.value.1] / 16 = item.key.1.code := by
    simp only [beNat, foldl_cons, foldl_nil, typeByte_toNat key value]
    omega
  rw [byte, ofNibble_code key]

lemma Reading.valueSubtype : (deserializeGetValueSubtype d).val = item.value.1 := by
  have key := key_nibble item
  have value := value_nibble item
  rw [deserializeGetValueSubtype, if_neg (not_le.mpr reading.used_lt)]
  simp only [bind_val, pure_val, reading.typeByte_fetch]
  have byte : beNat [typeByte item.key.1 item.value.1] % 16 = item.value.1.code := by
    simp only [beNat, foldl_cons, foldl_nil, typeByte_toNat key value]
    omega
  rw [byte, ofNibble_code value]

lemma Reading.itemType :
    (deserializeGetItemType d).val = (item.key.1.widenedKey, item.value.1.widened) := by
  simp [deserializeGetItemType, reading.keySubtype, reading.valueSubtype]

/-- The buffer as seen from the key field. -/
lemma Reading.cells_key :
    d.buffer.data.cells = (before ++ [typeByte item.key.1 item.value.1]) ++ item.key.2 ++
      (item.value.2 ++ after) := by
  rw [reading.cells, Item.encode]
  simp

/-- The buffer as seen from the value field. -/
lemma Reading.cells_value :
    d.buffer.data.cells = (before ++ [typeByte item.key.1 item.value.1] ++ item.key.2) ++
      item.value.2 ++ after := by
  rw [reading.cells, Item.encode]
  simp

lemma Reading.keyOffset : wrap32 (d.status.used + 1) = d.status.used + 1 := by
  have inside := reading.used_lt
  have small := reading.small
  exact wrap32_of_lt (by omega)

lemma Reading.valueOffset :
    wrap32 (d.status.used + (1 + item.key.2.length)) = d.status.used + (1 + item.key.2.length) := by
  have inside := reading.inside
  have small := reading.small
  have length := encode_length item
  have position := reading.position
  exact wrap32_of_lt (by omega)

lemma Reading.locateKey : (locateKey d).val = some (item.key.1, item.key.2.length) := by
  have inside := reading.inside
  have short := reading.short
  have length := encode_length item
  have position := reading.position
  have size := getSingleSize_field d (d.status.used + 1) _ _ item.key reading.cells_key
    (by rw [length_append, position]; rfl) (by omega) (by omega) (key_sized item)
  have room : d.buffDiff = d.buffer.size - d.status.used := sub32_of_le (by omega)
  rw [Source.Serialization.locateKey, if_neg (by omega)]
  simp only [bind_val, reading.keySubtype, reading.keyOffset, size]
  rw [if_neg (by omega)]
  rfl

lemma Reading.locateValue :
    (locateValue d).val = some (item.value.1, 1 + item.key.2.length, item.value.2.length) := by
  have inside := reading.inside
  have short := reading.short
  have length := encode_length item
  have position := reading.position
  have size := getSingleSize_field d (d.status.used + (1 + item.key.2.length)) _ _ item.value
    reading.cells_value (by simp only [length_append, position, length_singleton]; omega)
    (by omega) (by omega) (value_sized item)
  have expected : wrap16 (1 + item.key.2.length) = 1 + item.key.2.length := wrap16_of_lt (by omega)
  rw [Source.Serialization.locateValue]
  simp only [bind_val, reading.locateKey, expected, reading.valueSubtype, reading.valueOffset, size]
  rw [if_neg (by omega)]
  rfl

/-- The next item starts right after this one. -/
lemma Reading.next : (deserializeNext d).val = ok (d.advance item.encode.length) := by
  have short := reading.short
  have length := encode_length item
  have total : wrap16 (1 + item.key.2.length + item.value.2.length) = item.encode.length := by
    rw [length]
    exact wrap16_of_lt (by omega)
  simp [deserializeNext, reading.locateValue, total]

lemma Reading.fetch_key :
    (d.buffer.data.fetch (d.status.used + 1) item.key.2.length).val = item.key.2 := by
  apply fetch_val _ _ _ _ _ reading.cells_key
  rw [length_append, reading.position]
  rfl

lemma Reading.fetch_value :
    (d.buffer.data.fetch (d.status.used + (1 + item.key.2.length)) item.value.2.length).val =
      item.value.2 := by
  apply fetch_val _ _ _ _ _ reading.cells_value
  simp only [length_append, reading.position, length_singleton]
  omega

lemma Reading.keyUint32 (key : UInt32) (stored : item.key = uint32Field key) :
    (deserializeKeyUint32 d).val = (0, some key) := by
  have located := reading.locateKey
  have bytes := reading.fetch_key
  rw [stored] at located bytes
  rcases uint32Field_cases key with ⟨form, fits⟩ | ⟨form, fits⟩ | ⟨form, fits⟩ <;>
  · rw [form] at located bytes
    rw [beBytes_length] at bytes
    simp [deserializeKeyUint32, located, reading.keyOffset, bytes, beNat_beBytes_of_lt fits]

lemma Reading.valueUint32 (value : UInt32) (stored : item.value = uint32Field value) :
    (deserializeValueUint32 d).val = (0, value) := by
  have located := reading.locateValue
  have bytes := reading.fetch_value
  rw [stored] at located bytes
  rcases uint32Field_cases value with ⟨form, fits⟩ | ⟨form, fits⟩ | ⟨form, fits⟩ <;>
  · rw [form] at located bytes
    rw [beBytes_length] at bytes
    simp [deserializeValueUint32, located, reading.valueOffset, bytes, beNat_beBytes_of_lt fits]

lemma Reading.valueInt32 (value : Int32) (stored : item.value = int32Field value) :
    (deserializeValueInt32 d).val = (0, value) := by
  have located := reading.locateValue
  have bytes := reading.fetch_value
  rw [stored] at located bytes
  rcases int32Field_cases value with ⟨form, same⟩ | ⟨form, same⟩ | ⟨form, same⟩ <;>
  · rw [form] at located bytes
    rw [beBytes_length] at bytes
    simp only [deserializeValueInt32, bind_val, located, reading.valueOffset, bytes,
      pure_val, beNat_beBytes, same]

lemma Reading.valueUint64 (value : UInt64) (stored : item.value = (.uint64, beBytes 8 value.toNat)) :
    (deserializeValueUint64 d).val = (0, some value) := by
  have located := reading.locateValue
  have bytes := reading.fetch_value
  rw [stored] at located bytes
  rw [beBytes_length] at bytes
  have fits : value.toNat < 256 ^ 8 := value.toNat_lt
  simp [deserializeValueUint64, located, reading.valueOffset, bytes, beNat_beBytes_of_lt fits]

lemma Reading.valueInt64 (value : Int64)
    (stored : item.value = (.int64, beBytes 8 value.toUInt64.toNat)) :
    (deserializeValueInt64 d).val = (0, value) := by
  have located := reading.locateValue
  have bytes := reading.fetch_value
  rw [stored] at located bytes
  rw [beBytes_length] at bytes
  have fits : value.toUInt64.toNat < 256 ^ 8 := value.toUInt64.toNat_lt
  have same : Int64.ofNat value.toUInt64.toNat = value := by
    apply Int64.toInt_inj.mp
    rw [Int64.toInt_ofNat']
    exact (BitVec.toInt_eq_toNat_bmod value.toBitVec).symm
  simp [deserializeValueInt64, located, reading.valueOffset, bytes, beNat_beBytes_of_lt fits, same]

lemma Reading.valueFloat (bits : UInt32)
    (stored : item.value = (.float, (beBytes 4 bits.toNat).reverse)) :
    (deserializeValueFloat d).val = (0, bits) := by
  have located := reading.locateValue
  have bytes := reading.fetch_value
  rw [stored] at located bytes
  rw [length_reverse, beBytes_length] at bytes
  have fits : bits.toNat < 256 ^ 4 := bits.toNat_lt
  simp [deserializeValueFloat, located, reading.valueOffset, bytes, beNat_beBytes_of_lt fits]

lemma Reading.keyString (key : Blob) (stored : item.key = (.string, stringField key.bytes)) :
    (deserializeKeyString d).val.1 = 0 ∧ PointsAt d (deserializeKeyString d).val.2 key.bytes := by
  have cells := reading.cells_key
  have located := reading.locateKey
  rw [stored] at cells
  have points := singleString_pointsAt d (d.status.used + 1) _ key.bytes _ cells
    (by rw [length_append, reading.position]; rfl) key.short
  simp only [deserializeKeyString, bind_val, located, reading.keyOffset, pure_val]
  exact ⟨trivial, points⟩

/-- The name of a block or list is read as a key, from behind an empty key. -/
lemma Reading.markerName (name : Blob) (noKey : item.key = (.unknown, []))
    (stored : item.value.2 = stringField name.bytes) :
    (deserializeKeyString d).val.1 = 0 ∧ PointsAt d (deserializeKeyString d).val.2 name.bytes := by
  have cells := reading.cells_value
  have located := reading.locateKey
  rw [noKey, stored, append_nil] at cells
  have points := singleString_pointsAt d (d.status.used + 1) _ name.bytes _ cells
    (by rw [length_append, reading.position]; rfl) name.short
  simp only [deserializeKeyString, bind_val, located, reading.keyOffset, pure_val]
  exact ⟨trivial, points⟩

lemma Reading.valueString (value : Blob) (stored : item.value = (.string, stringField value.bytes)) :
    (deserializeValueString d).val.1 = 0 ∧
      PointsAt d (deserializeValueString d).val.2 value.bytes := by
  have cells := reading.cells_value
  have located := reading.locateValue
  have type : item.value.1 = .string := by rw [stored]
  have bytes : item.value.2 = stringField value.bytes := by rw [stored]
  rw [bytes] at cells
  have points := singleString_pointsAt d (d.status.used + (1 + item.key.2.length)) _ value.bytes _
    cells (by simp only [length_append, reading.position, length_singleton]; omega)
    value.short
  simp only [deserializeValueString, bind_val, located, type, ne_eq, not_true_eq_false,
    if_false, reading.valueOffset, pure_val]
  exact ⟨trivial, points⟩

end Ndpi.Refinement
