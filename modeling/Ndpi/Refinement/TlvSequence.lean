import Ndpi.Refinement.Run
import Ndpi.Refinement.TlvRead
import Ndpi.Source.Serialization.ReadLoop

/-!
# Reading a whole buffer

A deserializer that still has a list of items before it. One step consumes the
first of them; at the end of the list every function reports the end of the
buffer. The read loop and the cloning loop both follow this sequence.
-/
namespace Ndpi.Refinement
open Lib Source Source.Serialization List Option Access

/-- The deserializer has read `before` and has these items before it. -/
structure Unread (d : Serializer) (before : Bytes) (items : List Item) : Prop where
  cells : ∃ spare, d.buffer.data.cells = before ++ items.flatMap Item.encode ++ spare
  size : d.buffer.size = before.length + (items.flatMap Item.encode).length
  position : d.status.used = before.length
  small : d.buffer.size < 4294967296

/-- The first item can be read. -/
lemma Unread.reading
    (unread : Unread d before (item :: rest)) (short : item.encode.length < 65536) :
    ∃ after, Reading d before item after := by
  obtain ⟨spare, cells⟩ := unread.cells
  have size := unread.size
  rw [flatMap_cons] at cells size
  rw [length_append] at size
  refine ⟨rest.flatMap Item.encode ++ spare, ?_, unread.position, by omega, unread.small, short⟩
  rw [cells]
  simp

/-- Behind it the others are left. -/
lemma Unread.advance (unread : Unread d before (item :: rest)) :
    Unread (d.advance item.encode.length) (before ++ item.encode) rest := by
  obtain ⟨spare, cells⟩ := unread.cells
  have size := unread.size
  have small := unread.small
  rw [flatMap_cons] at cells size
  rw [length_append] at size
  refine ⟨⟨spare, ?_⟩, ?_, ?_, small⟩
  · show d.buffer.data.cells = _
    rw [cells]
    simp
  · show d.buffer.size = _
    rw [length_append]
    omega
  · show wrap32 (d.status.used + item.encode.length) = _
    rw [unread.position, length_append]
    exact wrap32_of_lt (by omega)

lemma Unread.used_eq (unread : Unread d before []) : d.status.used = d.buffer.size := by
  rw [unread.position, unread.size]
  rfl

/-- At the end the types are unknown. -/
lemma Unread.end_itemType (unread : Unread d before []) :
    (deserializeGetItemType d).val = (.unknown, .unknown) := by
  have ended : d.buffer.size ≤ d.status.used := le_of_eq unread.used_eq.symm
  simp [deserializeGetItemType, deserializeGetKeySubtype,
    deserializeGetValueSubtype, if_pos ended, ItemType.widenedKey, ItemType.widened]

lemma Unread.end_next (unread : Unread d before []) : (deserializeNext d).val.rc = -2 := by
  have room : d.buffDiff < 1 := by
    rw [buffDiff_eq, if_pos (Nat.le_of_eq unread.used_eq), unread.used_eq]
    omega
  simp only [deserializeNext, locateValue, locateKey, if_pos room, bind_val, pure_val]

/-- A deserializer opened on a TLV serializer's buffer has its items before it. -/
lemma initDeserializer_unread (d s : Serializer) (items : List Item) (sound : Sound s)
    (text : s.text = [1, 1] ++ items.flatMap Item.encode) :
    ∃ opened, initDeserializer d s = ok opened ∧ Unread opened [1, 1] items := by
  have length := sound.text_length
  have used := sound.used
  have split : s.buffer.data.cells = s.text ++ s.buffer.data.cells.drop s.status.used :=
    (take_append_drop _ _).symm
  rw [text] at length split
  have size : (UInt32.ofNat s.status.used).toNat = s.status.used := by
    rw [UInt32.toNat_ofNat']
    exact Nat.mod_eq_of_lt used
  have enough : ¬s.status.used < 2 := by
    rw [← length, length_append, length_cons, length_cons]
    omega
  have version : s.buffer.data.cells[0]?.getD 0 = 1 := by rw [split]; rfl
  have format : s.buffer.data.cells[1]?.getD 0 = 1 := by rw [split]; rfl
  unfold initDeserializer initDeserializerBuf
  simp only [size, if_neg enough, version, format, ne_eq, not_true_eq_false, if_false]
  refine ⟨_, rfl, ⟨_, split⟩, ?_, rfl, used⟩
  rw [length_append] at length
  exact length.symm

/-- An item as the read loop reports it. -/
def ItemKey.read : ItemKey → ReadKey
  | .uint32 key => .uint32 key
  | .string key => .string key.bytes

def ItemValue.read : ItemValue → ReadValue
  | .uint32 value => .unsigned value.toNat
  | .uint64 value _ => .unsigned value.toNat
  | .int32 value => .signed value.toInt
  | .int64 value _ => .signed value.toInt
  | .float bits => .float bits
  | .string value => .string value.bytes

/-- What the read loop reports of an item. -/
def Item.element : Item → Element
  | .field key value => .field key.read value.read
  | .startOfBlock key => .startOfBlock key.bytes
  | .endOfBlock => .endOfBlock
  | .startOfList key => .startOfList key.bytes
  | .endOfList => .endOfList
  | .endOfRecord => .endOfRecord

/-- A string that points at these bytes holds them. -/
lemma PointsAt.content {string : NdpiString} {content : Bytes}
    (points : PointsAt d string content) : string.content d = content := by
  obtain ⟨rest, memory⟩ := points.memory
  rw [NdpiString.content, memory, points.length, take_left]

lemma returned_string {result : Int × NdpiString} {content : Bytes}
    (points : result.1 = 0 ∧ PointsAt d result.2 content) :
    (returned result).map (fun string => string.content d) = some content := by
  rw [returned, if_pos points.1, map_some, points.2.content]

section

variable {d : Serializer} {before after : Bytes}

lemma uint32Field_widened (value : UInt32) : (uint32Field value).1.widened = .uint32 := by
  rcases uint32Field_cases value with ⟨form, -⟩ | ⟨form, -⟩ | ⟨form, -⟩ <;> rw [form] <;> rfl

lemma int32Field_widened (value : Int32) : (int32Field value).1.widened = .int32 := by
  rcases int32Field_cases value with ⟨form, -⟩ | ⟨form, -⟩ | ⟨form, -⟩ <;> rw [form] <;> rfl

lemma uint32Field_widenedKey (key : UInt32) : (uint32Field key).1.widenedKey = .uint32 := by
  rcases uint32Field_cases key with ⟨form, -⟩ | ⟨form, -⟩ | ⟨form, -⟩ <;> rw [form] <;> rfl

/-- The key is read as it was written. -/
lemma Reading.readKey (reading : Reading d before (.field key value) after) :
    readKey d key.field.1.widenedKey = some key.read := by
  cases key with
  | uint32 key =>
    have accessed := reading.keyUint32 key rfl
    simp [ItemKey.field, uint32Field_widenedKey, Serialization.readKey, accessed, returned,
      ItemKey.read]
  | string key =>
    have accessed := returned_string (reading.keyString key rfl)
    rw [map_eq_some_iff] at accessed
    obtain ⟨string, result, content⟩ := accessed
    simp [ItemKey.field, ItemType.widenedKey, Serialization.readKey, result, content, ItemKey.read]

/-- The value, in its wide type. -/
lemma Reading.readValue (reading : Reading d before (.field key value) after) :
    readValue d value.field.1.widened = some value.read := by
  cases value with
  | uint32 value =>
    have accessed := reading.valueUint32 value rfl
    simp [ItemValue.field, uint32Field_widened, Serialization.readValue, accessed, returned,
      ItemValue.read]
  | uint64 value large =>
    have accessed := reading.valueUint64 value rfl
    simp [ItemValue.field, ItemType.widened, Serialization.readValue, accessed, returned,
      ItemValue.read]
  | int32 value =>
    have accessed := reading.valueInt32 value rfl
    simp [ItemValue.field, int32Field_widened, Serialization.readValue, accessed, returned,
      ItemValue.read]
  | int64 value wide =>
    have accessed := reading.valueInt64 value rfl
    simp [ItemValue.field, ItemType.widened, Serialization.readValue, accessed, returned,
      ItemValue.read]
  | float bits =>
    have accessed := reading.valueFloat bits rfl
    simp [ItemValue.field, ItemType.widened, Serialization.readValue, accessed, returned,
      ItemValue.read]
  | string value =>
    have accessed := returned_string (reading.valueString value rfl)
    rw [map_eq_some_iff] at accessed
    obtain ⟨string, result, content⟩ := accessed
    simp [ItemValue.field, ItemType.widened, Serialization.readValue, result, content,
      ItemValue.read]

/-- A field's value type is one of those a value is fetched by. -/
lemma widened_field (value : ItemValue) :
    value.field.1.widened = .uint32 ∨ value.field.1.widened = .uint64 ∨
    value.field.1.widened = .int32 ∨ value.field.1.widened = .int64 ∨
    value.field.1.widened = .float ∨ value.field.1.widened = .string := by
  cases value with
  | uint32 value => exact .inl (uint32Field_widened value)
  | uint64 value large => exact .inr (.inl rfl)
  | int32 value => exact .inr (.inr (.inl (int32Field_widened value)))
  | int64 value wide => exact .inr (.inr (.inr (.inl rfl)))
  | float bits => exact .inr (.inr (.inr (.inr (.inl rfl))))
  | string value => exact .inr (.inr (.inr (.inr (.inr rfl))))

lemma Reading.readElement (reading : Reading d before item after) :
    readElement d = some item.element := by
  have types := reading.itemType
  unfold Serialization.readElement
  simp only [types]
  cases item with
  | field key value =>
    have readKey := reading.readKey
    have readValue := reading.readValue
    simp only [Item.key, Item.value]
    rcases widened_field value with type | type | type | type | type | type <;>
    · rw [type] at readValue ⊢
      simp [readKey, readValue, Item.element]
  | startOfBlock key =>
    have name := returned_string (reading.markerName key rfl rfl)
    simp [Item.value, ItemType.widened, readName, name, Item.element]
  | startOfList key =>
    have name := returned_string (reading.markerName key rfl rfl)
    simp [Item.value, ItemType.widened, readName, name, Item.element]
  | endOfBlock => rfl
  | endOfList => rfl
  | endOfRecord => rfl

/-- No item is taken for the end. -/
lemma Reading.known (reading : Reading d before item after) :
    (deserializeGetItemType d).val.2 ≠ .unknown := by
  rw [reading.itemType]
  cases item with
  | field key value =>
    rcases widened_field value with type | type | type | type | type | type <;>
      simp [Item.value, type]
  | _ => simp [Item.value, ItemType.widened]

end

/-- The read loop reports the items before it and stops at the end of the
buffer. -/
lemma readLoop_items (items : List Item) (d : Serializer) (before : Bytes)
    (unread : Unread d before items) (short : ∀ item ∈ items, item.encode.length < 65536) :
    ∃ ended after, readLoop (items.length + 1) d = some (items.map Item.element, ended) ∧
      Unread ended after [] := by
  induction items generalizing d before with
  | nil =>
    refine ⟨d, before, ?_, unread⟩
    simp [readLoop, unread.end_itemType]
  | cons item rest ih =>
    obtain ⟨after, reading⟩ := unread.reading (short item (by simp))
    obtain ⟨ended, last, loop, atEnd⟩ := ih _ _ unread.advance
      (fun other member => short other (by simp [member]))
    refine ⟨ended, last, ?_, atEnd⟩
    rw [length_cons, readLoop, if_neg reading.known]
    simp [reading.readElement, reading.next, ok, loop]

end Ndpi.Refinement
