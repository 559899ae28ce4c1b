import Ndpi.Refinement.TlvExtent

/-!
# Bounds of the deserializer

The indices the accessors of a deserializer read over an arbitrary buffer. The
sizes are checked for strings only, and a failed check is lost in a 16-bit
variable, so an item cut short by the end of the buffer is read beyond it. The
accessors stay inside at every position exactly when every item the walk meets
lies inside the buffer with all the fields that are read from it.
-/
namespace Ndpi.Guarantees.DeserializerBounds
open Lib Source.Serialization Refinement Access Memory

/-- At this position the read offset is at most the length of the buffer, and
every function of the deserializer reads inside it. -/
structure StaysInside (d : Serializer) : Prop where
  offset : d.status.used ≤ d.buffer.size
  itemType : (deserializeGetItemType d).Inside d.buffer.size
  next : (deserializeNext d).Inside d.buffer.size
  keyUint32 : (deserializeKeyUint32 d).Inside d.buffer.size
  keyString : (deserializeKeyString d).Inside d.buffer.size
  valueUint32 : (deserializeValueUint32 d).Inside d.buffer.size
  valueUint64 : (deserializeValueUint64 d).Inside d.buffer.size
  valueInt32 : (deserializeValueInt32 d).Inside d.buffer.size
  valueInt64 : (deserializeValueInt64 d).Inside d.buffer.size
  valueFloat : (deserializeValueFloat d).Inside d.buffer.size
  valueDouble : (deserializeValueDouble d).Inside d.buffer.size
  valueString : (deserializeValueString d).Inside d.buffer.size
  cloneItem : ∀ heap s, (deserializeCloneItem heap d s).Inside d.buffer.size

/-- The bytes an accessor reads at the offset of a value: the whole of a number,
the length of a string. -/
def valueReadWidth : ItemType → Nat
  | .uint8 | .int8 => 1
  | .uint16 | .int16 | .string => 2
  | .uint32 | .int32 | .float => 4
  | .uint64 | .int64 | .double => 8
  | .endOfRecord | .startOfBlock | .endOfBlock | .startOfList | .endOfList | .unknown => 0

/-- The item at an offset has the fields of its types inside the buffer. A key
takes at least two bytes: `ndpi_deserialize_key_string` reads a length whatever
the key type is. -/
structure ItemInside (cells : Bytes) (len offset : Nat) : Prop where
  key : offset + 3 ≤ len
  longKey : keyTypeAt cells offset = .uint32 → offset + 5 ≤ len
  length : hasLength (valueTypeAt cells offset) = true → valueOffsetAt cells len offset ≤ len
  value : valueReadWidth (valueTypeAt cells offset) = 0 ∨
    valueOffsetAt cells len offset + valueReadWidth (valueTypeAt cells offset) ≤ len
  whole : itemSizeAt cells len offset = 0 ∨ offset + itemSizeAt cells len offset ≤ len

/-- The field of the value's type lies inside the buffer. -/
def FieldInside (d : Serializer) : Prop :=
  valueOffsetAt d.buffer.data.cells d.buffer.size d.status.used +
    valueReadWidth (valueTypeAt d.buffer.data.cells d.status.used) ≤ d.buffer.size

section
variable {d : Serializer}

lemma locateKey_end (atEnd : d.status.used = d.buffer.size) : locateKey d = pure none := by
  have diff : d.buffDiff < 1 := by
    rw [Serializer.buffDiff, sub32_of_le (le_of_eq atEnd)]
    omega
  rw [locateKey, if_pos diff]

lemma locateValue_end (atEnd : d.status.used = d.buffer.size) : locateValue d = pure none := by
  rw [locateValue, locateKey_end atEnd]
  rfl

lemma getItemType_inside (d : Serializer) : (deserializeGetItemType d).Inside d.buffer.size := by
  simp only [deserializeGetItemType, inside_bind, inside_pure, and_true]
  exact ⟨getKeySubtype_inside d, getValueSubtype_inside d⟩

lemma located_end (atEnd : d.status.used = d.buffer.size) (stops : rest none = pure value) :
    (locateValue d >>= rest).Inside d.buffer.size := by
  rw [locateValue_end atEnd]
  show (rest none).Inside _
  rw [stops]
  exact inside_pure

/-- At the end of the buffer nothing is read. -/
lemma staysInside_end (atEnd : d.status.used = d.buffer.size) : StaysInside d where
  offset := le_of_eq atEnd
  itemType := getItemType_inside d
  next := located_end atEnd rfl
  keyUint32 := by
    rw [deserializeKeyUint32, locateKey_end atEnd]
    exact inside_pure
  keyString := by
    rw [deserializeKeyString, locateKey_end atEnd]
    exact inside_pure
  valueUint32 := located_end atEnd rfl
  valueUint64 := located_end atEnd rfl
  valueInt32 := located_end atEnd rfl
  valueInt64 := located_end atEnd rfl
  valueFloat := located_end atEnd rfl
  valueDouble := located_end atEnd rfl
  valueString := located_end atEnd rfl
  cloneItem := by
    intro heap s
    rw [deserializeCloneItem]
    split
    · exact inside_pure
    · exact located_end atEnd rfl

end

/-- The value is located, and its field is read if it has one of these types. -/
def ReadsTypes (d : Serializer) {α : Type} (x : Access α) (types : List ItemType) : Prop :=
  x.Inside d.buffer.size ↔ (locateValue d).Inside d.buffer.size ∧
    (valueTypeAt d.buffer.data.cells d.status.used ∈ types → FieldInside d)

section
variable {d : Serializer} (inside : d.status.used < d.buffer.size)
  (size : d.buffer.size < 4294967296)

include inside size

lemma locateKey_inside : (locateKey d).Inside d.buffer.size := by
  have offset : wrap32 (d.status.used + 1) = d.status.used + 1 := wrap32_of_lt (by omega)
  simp only [locateKey, if_neg (buffDiff_pos inside), inside_bind]
  refine ⟨getKeySubtype_inside d, ?_, ?_⟩
  · rw [getSingleSize_inside d _ size (wrap32_lt _) (by omega), offset]
    intro _
    exact inside
  · split <;> exact inside_pure

lemma locateValue_inside :
    (locateValue d).Inside d.buffer.size ↔
      (hasLength (valueTypeAt d.buffer.data.cells d.status.used) = true →
        valueOffsetAt d.buffer.data.cells d.buffer.size d.status.used ≤ d.buffer.size) := by
  rw [locateValue, inside_bind, locateKey_val inside]
  rw [inside_bind, inside_bind, getValueSubtype_val inside,
    getSingleSize_inside d _ size (wrap32_lt _) (by omega)]
  have last : ∀ z : Int, (if z < 0 then pure none
      else pure (some (valueTypeAt d.buffer.data.cells d.status.used,
        headSizeAt d.buffer.data.cells d.buffer.size d.status.used, z.toNat)) :
        Access (Option (ItemType × Nat × Nat))).Inside d.buffer.size := by
    intro z
    split <;> exact inside_pure
  constructor
  · intro reached
    exact reached.2.2.1
  · intro length
    exact ⟨locateKey_inside inside size, getValueSubtype_inside d, length, last _⟩

lemma keyUint32_inside :
    (deserializeKeyUint32 d).Inside d.buffer.size ↔
      match keyTypeAt d.buffer.data.cells d.status.used with
      | .uint32 => d.status.used + 5 ≤ d.buffer.size
      | .uint16 => d.status.used + 3 ≤ d.buffer.size
      | .uint8 => d.status.used + 2 ≤ d.buffer.size
      | _ => True := by
  have offset : wrap32 (d.status.used + 1) = d.status.used + 1 := wrap32_of_lt (by omega)
  rw [deserializeKeyUint32, inside_bind, locateKey_val inside, offset]
  simp only [locateKey_inside inside size, true_and]
  cases keyTypeAt d.buffer.data.cells d.status.used <;>
    simp [add_assoc]

lemma keyString_inside :
    (deserializeKeyString d).Inside d.buffer.size ↔ d.status.used + 3 ≤ d.buffer.size := by
  have offset : wrap32 (d.status.used + 1) = d.status.used + 1 := wrap32_of_lt (by omega)
  rw [deserializeKeyString, inside_bind, locateKey_val inside, offset]
  simp [locateKey_inside inside size, deserializeSingleString, add_assoc]

omit size in
/-- A function that goes on from the value it located. -/
lemma located_inside (rest : Option (ItemType × Nat × Nat) → Access α) :
    (locateValue d >>= rest).Inside d.buffer.size ↔ (locateValue d).Inside d.buffer.size ∧
      (rest (some (valueTypeAt d.buffer.data.cells d.status.used,
        headSizeAt d.buffer.data.cells d.buffer.size d.status.used,
        valueSizeAt d.buffer.data.cells d.buffer.size d.status.used))).Inside d.buffer.size := by
  rw [inside_bind, locateValue_val inside]

omit size in
lemma valueUint32_inside : ReadsTypes d (deserializeValueUint32 d) [.uint8, .uint16, .uint32] := by
  rw [ReadsTypes, deserializeValueUint32, located_inside inside, FieldInside, valueOffsetAt]
  cases valueTypeAt d.buffer.data.cells d.status.used <;>
    simp [valueReadWidth]

omit size in
lemma valueInt32_inside : ReadsTypes d (deserializeValueInt32 d) [.int8, .int16, .int32] := by
  rw [ReadsTypes, deserializeValueInt32, located_inside inside, FieldInside, valueOffsetAt]
  cases valueTypeAt d.buffer.data.cells d.status.used <;>
    simp [valueReadWidth]

omit size in
lemma valueUint64_inside :
    ReadsTypes d (deserializeValueUint64 d) [.uint8, .uint16, .uint32, .uint64] := by
  have narrow := valueUint32_inside inside
  rw [ReadsTypes, deserializeValueUint64, located_inside inside]
  rw [ReadsTypes, FieldInside, valueOffsetAt] at narrow
  rw [FieldInside, valueOffsetAt]
  cases type : valueTypeAt d.buffer.data.cells d.status.used <;> rw [type] at narrow <;>
    simp [valueReadWidth, narrow]

omit size in
lemma valueInt64_inside :
    ReadsTypes d (deserializeValueInt64 d) [.int8, .int16, .int32, .int64] := by
  have narrow := valueInt32_inside inside
  rw [ReadsTypes, deserializeValueInt64, located_inside inside]
  rw [ReadsTypes, FieldInside, valueOffsetAt] at narrow
  rw [FieldInside, valueOffsetAt]
  cases type : valueTypeAt d.buffer.data.cells d.status.used <;> rw [type] at narrow <;>
    simp [valueReadWidth, narrow]

omit size in
lemma valueFloat_inside : ReadsTypes d (deserializeValueFloat d) [.float] := by
  rw [ReadsTypes, deserializeValueFloat, located_inside inside, FieldInside, valueOffsetAt]
  cases valueTypeAt d.buffer.data.cells d.status.used <;>
    simp [valueReadWidth]

omit size in
lemma valueDouble_inside : ReadsTypes d (deserializeValueDouble d) [.double] := by
  rw [ReadsTypes, deserializeValueDouble, located_inside inside, FieldInside, valueOffsetAt]
  cases valueTypeAt d.buffer.data.cells d.status.used <;>
    simp [valueReadWidth]

omit size in
lemma valueString_inside : ReadsTypes d (deserializeValueString d) [.string] := by
  rw [ReadsTypes, deserializeValueString, located_inside inside, FieldInside, valueOffsetAt]
  cases valueTypeAt d.buffer.data.cells d.status.used <;>
    simp [deserializeSingleString, valueReadWidth]

omit size in
lemma next_inside :
    (deserializeNext d).Inside d.buffer.size ↔ (locateValue d).Inside d.buffer.size := by
  rw [deserializeNext, located_inside inside]
  simp

omit size in
/-- Cloning copies the whole item once the target has room for it. -/
lemma cloneItem_inside :
    (∀ heap s, (deserializeCloneItem heap d s).Inside d.buffer.size) ↔
      (locateValue d).Inside d.buffer.size ∧
        (itemSizeAt d.buffer.data.cells d.buffer.size d.status.used = 0 ∨
          d.status.used + itemSizeAt d.buffer.data.cells d.buffer.size d.status.used ≤
            d.buffer.size) := by
  constructor
  · intro reads
    -- a target of the right format whose allocator grants everything
    have copied := reads ⟨fun _ => true, fun _ => 0⟩ { d with fmt := .tlv }
    rw [deserializeCloneItem, if_neg (by simp), located_inside inside] at copied
    refine ⟨copied.1, ?_⟩
    have granted : ∀ needed, ({ d with fmt := .tlv }.reserve ⟨fun _ => true, fun _ => 0⟩
        needed).rc = 0 := by
      intro needed
      unfold Serializer.reserve extendSerializerBuffer
      split <;> rfl
    have fetched := copied.2
    dsimp only at fetched
    rw [if_neg (not_not.mpr (granted _)), inside_bind, fetch_inside] at fetched
    exact fetched.1
  · intro ⟨located, whole⟩ heap s
    rw [deserializeCloneItem]
    split
    · exact inside_pure
    · rw [located_inside inside]
      refine ⟨located, ?_⟩
      dsimp only
      split
      · exact inside_pure
      · rw [inside_bind, fetch_inside]
        exact ⟨whole, inside_pure⟩

/-- Inside the buffer, the functions of the deserializer read inside it exactly
when the item there lies inside it. -/
lemma staysInside_iff :
    StaysInside d ↔ ItemInside d.buffer.data.cells d.buffer.size d.status.used := by
  have located := locateValue_inside inside size
  constructor
  · intro stays
    have length := (next_inside inside).mp stays.next
    have key := (keyString_inside inside size).mp stays.keyString
    refine ⟨key, ?_, located.mp length, ?_, ((cloneItem_inside inside).mp stays.cloneItem).2⟩
    · intro type
      have read := (keyUint32_inside inside size).mp stays.keyUint32
      rw [type] at read
      exact read
    · have unsigned := ((valueUint64_inside inside).mp stays.valueUint64).2
      have signed := ((valueInt64_inside inside).mp stays.valueInt64).2
      have float := ((valueFloat_inside inside).mp stays.valueFloat).2
      have double := ((valueDouble_inside inside).mp stays.valueDouble).2
      have string := ((valueString_inside inside).mp stays.valueString).2
      rw [FieldInside] at unsigned signed float double string
      cases type : valueTypeAt d.buffer.data.cells d.status.used <;>
        simp_all [valueReadWidth]
  · intro item
    have length := located.mpr item.length
    have field : ∀ types : List ItemType, (∀ type ∈ types, valueReadWidth type ≠ 0) →
        valueTypeAt d.buffer.data.cells d.status.used ∈ types → FieldInside d := by
      intro types read member
      exact item.value.resolve_left (read _ member)
    exact {
      offset := le_of_lt inside
      itemType := getItemType_inside d
      next := (next_inside inside).mpr length
      keyUint32 := by
        have key := item.key
        have longKey := item.longKey
        rw [keyUint32_inside inside size]
        cases type : keyTypeAt d.buffer.data.cells d.status.used <;>
          first | trivial | (simp only [type, forall_const] at longKey ⊢; omega)
      keyString := (keyString_inside inside size).mpr item.key
      valueUint32 := (valueUint32_inside inside).mpr ⟨length, field _ (by decide)⟩
      valueUint64 := (valueUint64_inside inside).mpr ⟨length, field _ (by decide)⟩
      valueInt32 := (valueInt32_inside inside).mpr ⟨length, field _ (by decide)⟩
      valueInt64 := (valueInt64_inside inside).mpr ⟨length, field _ (by decide)⟩
      valueFloat := (valueFloat_inside inside).mpr ⟨length, field _ (by decide)⟩
      valueDouble := (valueDouble_inside inside).mpr ⟨length, field _ (by decide)⟩
      valueString := (valueString_inside inside).mpr ⟨length, field _ (by decide)⟩
      cloneItem := (cloneItem_inside inside).mpr ⟨length, item.whole⟩ }

end

/-- The offsets at which the walk over the buffer meets an item or its end. -/
inductive ItemAt (cells : Bytes) (len first : Nat) : Nat → Prop
  | first : ItemAt cells len first first
  | next {offset : Nat} : ItemAt cells len first offset → offset < len →
      ItemAt cells len first (wrap32 (offset + itemSizeAt cells len offset))

/-- A position of the walk for every offset. -/
lemma ItemAt.reached (small : start.status.used < 4294967296)
    (item : ItemAt start.buffer.data.cells start.buffer.size start.status.used offset) :
    ∃ d, Reached start d ∧ d.status.used = offset := by
  induction item with
  | first => exact ⟨start, .start, rfl⟩
  | next _ inside ih =>
    obtain ⟨d, reached, rfl⟩ := ih
    have buffer := (reached.buffer small).1
    rw [← buffer] at inside ⊢
    have next := deserializeNext_val inside
    refine ⟨_, reached.next (by rw [next]; rfl), ?_⟩
    rw [next]
    rfl

/-- Over every accepted buffer, the functions of the deserializer keep inside it
at all positions of the walk exactly when every item of the walk lies inside. -/
theorem deserializer_inside_iff (b : AcceptedBuffer) :
    (∀ d, Reached b.start d → StaysInside d) ↔
      ∀ offset, ItemAt b.start.buffer.data.cells b.len.toNat b.start.status.used offset →
        offset ≤ b.len.toNat ∧ (offset < b.len.toNat →
          ItemInside b.start.buffer.data.cells b.len.toNat offset) := by
  have small := b.start_used
  have size : b.start.buffer.size < 4294967296 := b.start_size ▸ b.len_lt
  rw [← b.start_size]
  constructor
  · intro stays offset item
    obtain ⟨d, reached, rfl⟩ := item.reached small
    have here := stays d reached
    rw [← (reached.buffer small).1] at size ⊢
    exact ⟨here.offset, fun inside => (staysInside_iff inside size).mp here⟩
  · intro items d reached
    have item : ItemAt b.start.buffer.data.cells b.start.buffer.size b.start.status.used
        d.status.used := by
      induction reached with
      | start => exact .first
      | @next d before success ih =>
        obtain ⟨buffer, used⟩ := before.buffer small
        obtain ⟨elsewhere, result⟩ := deserializeNext_success used success
        rw [buffer] at elsewhere result
        have inside := lt_of_le_of_ne (items _ ih).1 elsewhere
        rw [result, skipAt, if_pos inside]
        exact ih.next inside
    obtain ⟨offset, whole⟩ := items _ item
    rw [← (reached.buffer small).1] at size offset whole
    rcases lt_or_eq_of_le offset with inside | atEnd
    · exact (staysInside_iff inside size).mpr (whole inside)
    · exact staysInside_end atEnd

/-- Version, format and the type byte of an item with a 32-bit key and a 32-bit
value, with nothing behind it. -/
def shortBuffer : AcceptedBuffer where
  before := ⟨noStatus, noBuffer, noBuffer, .unknown, 0, false, false, false, noStatus⟩
  data := ⟨[1, 1, 0x44], []⟩
  len := 3
  accepted := rfl

/-- On the first item already, the key is read behind the buffer, and
`ndpi_deserialize_next` moves behind it. -/
theorem deserializer_leaves_buffer :
    (deserializeKeyUint32 shortBuffer.start).reads = [2, 3, 4, 5, 6] ∧
      (deserializeNext shortBuffer.start).val.rc = 0 ∧
      (deserializeNext shortBuffer.start).val.ser.status.used = 11 ∧
      ¬∀ d, Reached shortBuffer.start d → StaysInside d := by
  refine ⟨rfl, rfl, rfl, fun stays => ?_⟩
  have read := (stays _ .start).keyUint32 3 (by decide)
  exact absurd read (by decide)

end Ndpi.Guarantees.DeserializerBounds
