import Ndpi.Refinement.TlvWrite

/-!
# The TLV operations stay inside their buffer

The other half of the logic of `TlvWrite`: where the room an operation reserves
covers what it writes, no store strays, whether the call succeeds or not. The
growth function adds sizes in 32 bits, so a reservation is only worth something
while the allocation is some way below `2 ^ 32`.
-/
namespace Ndpi.Refinement
open Lib Source.Serialization List Memory

/-- A TLV serializer whose text lies in its buffer and that never wrote outside. -/
structure Contained (s : Serializer) : Prop where
  fmt : s.fmt = .tlv
  sound : Sound s
  clean : Clean s

lemma Contained.withFlags (contained : Contained s) (flags : StatusFlags) :
    Contained { s with status := ⟨flags, s.status.used, s.status.headerUsed⟩ } :=
  ⟨contained.fmt, ⟨⟨contained.sound.cells, contained.sound.size, contained.sound.used⟩,
    contained.sound.inside⟩, contained.clean⟩

/-- From `s` to `t` nothing of the text is lost, nor the saved status. -/
structure Lengthens (s t : Serializer) : Prop where
  kept : t.buffer.data.cells.take s.status.used = s.text
  used : s.status.used ≤ t.status.used
  hasSnapshot : t.hasSnapshot = s.hasSnapshot
  snapshot : t.snapshot = s.snapshot

lemma Lengthens.refl (s : Serializer) : Lengthens s s := ⟨rfl, le_refl _, rfl, rfl⟩

lemma Lengthens.trans (first : Lengthens s t) (second : Lengthens t u) : Lengthens s u := by
  refine ⟨?_, le_trans first.used second.used, second.hasSnapshot.trans first.hasSnapshot,
    second.snapshot.trans first.snapshot⟩
  have shorter := congrArg (List.take s.status.used) second.kept
  rw [Serializer.text, take_take, take_take, min_eq_left first.used] at shorter
  exact shorter.trans first.kept

lemma Lengthens.withFlags (longer : Lengthens s t) (flags : StatusFlags) :
    Lengthens s { t with status := ⟨flags, t.status.used, t.status.headerUsed⟩ } :=
  ⟨longer.kept, longer.used, longer.hasSnapshot, longer.snapshot⟩

/-- `f` adds `count` bytes wherever there is room for them. -/
def Adds (f : Serializer → Serializer) (count : Nat) : Prop :=
  ∀ s, Contained s → s.status.used + count ≤ s.buffer.size →
    Contained (f s) ∧ Lengthens s (f s) ∧ (f s).status.used = s.status.used + count ∧
      (f s).buffer.size = s.buffer.size

lemma adds_append (bytes : Bytes) : Adds (·.append bytes) bytes.length := by
  intro s contained room
  have cells := contained.sound.cells
  have size := contained.sound.size
  have used : (s.append bytes).status.used = s.status.used + bytes.length :=
    wrap32_of_lt (lt_of_le_of_lt room size)
  have stored : (s.append bytes).buffer.data.stray = s.buffer.data.stray :=
    storeAll_inside bytes s.buffer.data s.status.used (by rw [cells]; exact room)
  have kept : (s.append bytes).buffer.data.cells.take s.status.used = s.text :=
    storeAll_take bytes s.buffer.data s.status.used s.status.used (le_refl _)
  refine ⟨⟨contained.fmt, ⟨contained.sound.toShaped.append bytes, ?_⟩, ?_⟩,
    ⟨kept, used ▸ Nat.le_add_right _ _, rfl, rfl⟩, used, rfl⟩
  · rw [used]
    exact room
  · exact stored.trans contained.clean

lemma adds_comp (left : Adds f first) (right : Adds g second) :
    Adds (fun s => g (f s)) (first + second) := by
  intro s contained room
  obtain ⟨middle, longer, used, size⟩ := left s contained (by omega)
  obtain ⟨after, longer', used', size'⟩ := right (f s) middle (by omega)
  exact ⟨after, longer.trans longer', used'.trans (by omega), size'.trans size⟩

lemma adds_singleString (bytes : Bytes) :
    Adds (serializeSingleString · bytes) (2 + bytes.length) := by
  have prefixed := adds_comp (adds_append (beBytes 2 bytes.length)) (adds_append bytes)
  rw [beBytes_length] at prefixed
  exact prefixed

/-- `f` stays contained, and adds to the text at most, wherever `room` bytes are
free and the allocation ends `slack` below `2 ^ 32`. -/
def Stays (f : Serializer → Outcome) (room slack : Nat) : Prop :=
  ∀ s, Contained s → s.status.used + room ≤ s.buffer.size → s.buffer.size + slack ≤ 4294967296 →
    Contained (f s).ser ∧ Lengthens s (f s).ser

lemma Stays.mono
    (stays : Stays f room slack) (moreRoom : room ≤ room') (moreSlack : slack ≤ slack') :
    Stays f room' slack' := by
  intro s contained free below
  exact stays s contained (by omega) (by omega)

variable {f g : Serializer → Outcome}

lemma Stays.congr (body : Stays g room slack) (same : ∀ s, s.fmt = .tlv → f s = g s) :
    Stays f room slack := by
  intro s contained free below
  rw [same s contained.fmt]
  exact body s contained free below

variable {count : Nat} {rest : Serializer → Serializer}

lemma stays_put (adds : Adds rest count) :
    Stays (fun s => ok (rest (s.put byte))) (1 + count) 0 := by
  intro s contained room _
  obtain ⟨after, longer, -⟩ := adds_comp (adds_append [byte]) adds s contained room
  exact ⟨after, longer⟩

lemma stays_backpatched (byte : UInt8) (adds : Adds rest count) :
    Stays (fun s => ok ((rest (s.advance 1)).storeAll s.status.used [byte])) (1 + count) 0 := by
  intro s contained room _
  have size := contained.sound.size
  have skipped : (s.advance 1).status.used = s.status.used + 1 := wrap32_of_lt (by omega)
  have free : (s.advance 1).status.used + count ≤ s.buffer.size := by omega
  have start : Contained (s.advance 1) :=
    ⟨contained.fmt, ⟨contained.sound.toShaped.advance 1, le_trans (by omega) free⟩,
      contained.clean⟩
  obtain ⟨after, longer, -, size'⟩ := adds (s.advance 1) start free
  have inside : s.status.used + [byte].length ≤ (rest (s.advance 1)).buffer.data.cells.length := by
    rw [after.sound.cells, size']
    exact le_trans (le_of_eq skipped.symm) (le_trans (by omega) free)
  have stored := storeAll_inside [byte] (rest (s.advance 1)).buffer.data s.status.used inside
  have skip : Lengthens s (s.advance 1) := ⟨rfl, by omega, rfl, rfl⟩
  have whole := skip.trans longer
  have kept := storeAll_take [byte] (rest (s.advance 1)).buffer.data s.status.used
    s.status.used (le_refl _)
  exact ⟨⟨after.fmt, ⟨after.sound.toShaped.storeAll _ _, after.sound.inside⟩,
    stored.trans after.clean⟩, ⟨kept.trans whole.kept, whole.used, whole.hasSnapshot,
    whole.snapshot⟩⟩

lemma stays_failed : Stays failed 0 0 := fun s contained _ _ => ⟨contained, .refl s⟩

/-- Away from `2 ^ 32` a successful reservation gives the room asked for. -/
lemma reserve_contained (contained : Contained s)
    (modest : needed ≤ 1048576) (below : s.buffer.size + needed + 1028 < 4294967296)
    (success : (s.reserve heap needed).rc = 0) :
    Contained (s.reserve heap needed).ser ∧
      (s.reserve heap needed).ser.status.used + needed ≤ (s.reserve heap needed).ser.buffer.size ∧
      (s.reserve heap needed).ser.buffer.size ≤ s.buffer.size + needed + 1028 ∧
      Lengthens s (s.reserve heap needed).ser := by
  have inside := contained.sound.inside
  have diff := buffDiff_eq s
  rw [if_pos inside] at diff
  rcases reserve_cases success with ⟨loose, result⟩ | ⟨tight, newSize, rounded, result⟩
  · rw [result]
    have room : s.status.used + needed ≤ s.buffer.size := by omega
    have bound : s.buffer.size ≤ s.buffer.size + needed + 1028 := by omega
    exact ⟨contained, room, bound, .refl s⟩
  · rw [result]
    have grown := extendedSize_cases s.buffer (needed - s.buffDiff) contained.sound.size (by omega)
    rw [← rounded] at grown
    have room : s.status.used + needed ≤ newSize := by omega
    have bound : newSize ≤ s.buffer.size + needed + 1028 := by omega
    refine ⟨⟨contained.fmt, ⟨⟨resize_length _ _ _, ?_, contained.sound.used⟩, ?_⟩,
      contained.clean⟩, room, bound, ⟨?_, le_refl _, rfl, rfl⟩⟩
    · exact lt_of_le_of_lt bound below
    · exact le_trans (Nat.le_add_right _ needed) room
    · exact resize_take _ _ _ _ (contained.sound.cells ▸ inside) (by omega)

variable {needed : Serializer → Nat}

/-- What is free after reserving covers the branch that follows. -/
lemma stays_reserve (heap : Heap) {f : Serializer → Outcome} (bound slack : Nat)
    (exactly : ∀ s, s.fmt = .tlv → needed s = bound) (modest : bound ≤ 262144 - 1029)
    (covered : slack + 262144 ≤ total) (body : Stays f bound slack) :
    Stays (fun s => (s.reserve heap (needed s)).andThen f) 0 total := by
  intro s contained _ below
  simp only [exactly s contained.fmt, Outcome.andThen]
  split
  · next success =>
    obtain ⟨after, free, size, longer⟩ := reserve_contained contained (by omega) (by omega) success
    obtain ⟨inside, longer'⟩ := body _ after free (by omega)
    exact ⟨inside, longer.trans longer'⟩
  · next success =>
    rw [reserve_failed success]
    exact ⟨contained, .refl s⟩

lemma stays_serializeItem (heap : Heap) (bound slack : Nat)
    (exactly : ∀ s, s.fmt = .tlv → needed s = bound) (modest : bound ≤ 262144 - 1029)
    (covered : slack + 262144 ≤ total) (body : Stays tlv bound slack) :
    Stays (fun s => serializeItem heap (needed s) json csv tlv s) 0 total := by
  apply stays_reserve heap bound slack exactly modest covered
  intro s contained free below
  obtain ⟨after, longer⟩ := body s contained free below
  simp only [contained.fmt, Outcome.andThen]
  split
  · exact ⟨after.withFlags _, longer.withFlags _⟩
  · exact ⟨after, longer⟩

lemma uint32Field_length (value : UInt32) : (uint32Field value).2.length ≤ 4 := by
  unfold uint32Field
  split
  · simp [beBytes_length]
  · split <;> simp [beBytes_length]

lemma int32Field_length (value : Int32) : (int32Field value).2.length ≤ 4 := by
  unfold int32Field
  split
  · simp [beBytes_length]
  · split <;> simp [beBytes_length]

lemma jsonRoom_tlv (s : Serializer) (fmt : s.fmt = .tlv) : s.jsonRoom extra = 0 := by
  unfold Serializer.jsonRoom
  rw [fmt]
  rfl

variable {value : Serializer → Serializer}

lemma stays_tlvUint32Item (key : UInt32) (et : ItemType) (adds : Adds value count) :
    Stays (tlvUint32Item key et value) (5 + count) 0 := by
  have width := uint32Field_length key
  have both := adds_comp (adds_append (uint32Field key).2) adds
  have body := stays_backpatched (typeByte (uint32Field key).1 et) both
  apply Stays.congr (body.mono (by omega) (le_refl 0))
  intro s _
  simp [tlvUint32Item, serializeKeyUint32_eq]

lemma stays_tlvStringItem (et : ItemType) (adds : Adds value count) :
    Stays (tlvStringItem key et value) (3 + key.klen + count) 0 := by
  have both := adds_comp (adds_singleString key.bytes) adds
  rw [keyArg_bytes_length] at both
  exact (stays_put both).mono (by omega) (le_refl 0)

/-- A key of digits only is handed to the function for integer keys. -/
lemma stays_numbered {name : KeyArg} (number : Stays f room slack) (plain : Stays g room slack) :
    Stays (fun s => if isNumber name.bytes then f s else g s) room slack := by
  by_cases isNumeric : isNumber name.bytes = true
  · simp only [isNumeric, if_true]
    exact number
  · simp only [isNumeric]
    exact plain

section

variable (heap : Heap) (key : UInt32) (name : KeyArg)

/-- A JSON serializer alone reserves more. -/
lemma stays_item (bound slack : Nat) (modest : bound ≤ 262144 - 1029)
    (covered : slack + 262144 ≤ total) (body : Stays tlv bound slack) :
    Stays (fun s => serializeItem heap (bound + s.jsonRoom extra) json csv tlv s) 0 total := by
  apply stays_serializeItem heap bound slack _ modest covered body
  intro s fmt
  rw [jsonRoom_tlv s fmt, add_zero]

lemma stays_uint32Uint32 (value : UInt32) :
    Stays (serializeUint32Uint32 heap key value) 0 262144 := by
  have width := uint32Field_length value
  apply stays_item heap 9 0 (by decide) (by decide)
  exact (stays_tlvUint32Item key _ (adds_append _)).mono (by omega) (le_refl 0)

lemma stays_uint32Int32 (value : Int32) :
    Stays (serializeUint32Int32 heap key value) 0 262144 := by
  have width := int32Field_length value
  apply stays_item heap 9 0 (by decide) (by decide)
  exact (stays_tlvUint32Item key _ (adds_append _)).mono (by omega) (le_refl 0)

-- The 64-bit functions reserve, then hand a small value on to a function that
-- reserves again.
lemma stays_uint32Uint64 (value : UInt64) :
    Stays (serializeUint32Uint64 heap key value) 0 524288 := by
  apply stays_item heap 13 262144 (by decide) (by decide)
  split
  · exact (stays_uint32Uint32 heap key _).mono (by decide) (le_refl _)
  · exact (stays_tlvUint32Item key _ (adds_append _)).mono (by simp [beBytes_length]) (by decide)

lemma stays_uint32Int64 (value : Int64) :
    Stays (serializeUint32Int64 heap key value) 0 524288 := by
  apply stays_item heap 13 262144 (by decide) (by decide)
  split
  · exact (stays_uint32Int32 heap key _).mono (by decide) (le_refl _)
  · exact (stays_tlvUint32Item key _ (adds_append _)).mono (by simp [beBytes_length]) (by decide)

variable (value : FloatArg)

lemma floatField_length : (floatField value).length = 4 := by
  simp [floatField, beBytes_length]

lemma stays_uint32Float :
    Stays (serializeUint32Float heap key value) 0 262144 := by
  have width := floatField_length value
  apply stays_item heap 41 0 (by decide) (by decide)
  exact (stays_tlvUint32Item key _ (adds_append _)).mono (by omega) (le_refl 0)

lemma stays_uint32Double :
    Stays (serializeUint32Double heap key printed) 0 262144 :=
  stays_item heap 45 0 (by decide) (by decide) (stays_failed.mono (by decide) (le_refl 0))

lemma stays_uint32Binary (value : Blob) :
    Stays (serializeUint32Binary heap key value) 0 262144 := by
  have short := value.short
  apply stays_item heap (7 + value.bytes.length) 0 (by omega) (by decide)
  exact (stays_tlvUint32Item key _ (adds_singleString _)).mono (by omega) (le_refl 0)

lemma stays_binaryUint32 (value : UInt32) :
    Stays (serializeBinaryUint32 heap name value) 0 262144 := by
  have width := uint32Field_length value
  have short := name.short
  apply Stays.congr
  case same =>
    intro s fmt
    unfold serializeBinaryUint32
    rw [if_neg (by rw [fmt]; decide)]
  apply stays_numbered (stays_uint32Uint32 heap _ value)
  apply stays_serializeItem heap (43 + name.klen) 0 (fun _ _ => rfl) (by omega) (by decide)
  exact (stays_tlvStringItem _ (adds_append _)).mono (by omega) (le_refl 0)

lemma stays_binaryInt32 (value : Int32) :
    Stays (serializeBinaryInt32 heap name value) 0 262144 := by
  have width := int32Field_length value
  have short := name.short
  apply stays_numbered (stays_uint32Int32 heap _ value)
  apply stays_item heap (7 + name.klen) 0 (by omega) (by decide)
  exact (stays_tlvStringItem _ (adds_append _)).mono (by omega) (le_refl 0)

lemma stays_stringInt32 (memory : Bytes) (value : Int32) :
    Stays (serializeStringInt32 heap memory value) 0 262144 := by
  apply Stays.congr (stays_binaryInt32 heap (.ofString memory) value)
  intro s fmt
  exact if_neg (by rw [fmt]; decide)

lemma stays_binaryUint64 (value : UInt64) :
    Stays (serializeBinaryUint64 heap name value) 0 524288 := by
  have short := name.short
  apply stays_numbered (stays_uint32Uint64 heap _ value)
  apply stays_item heap (11 + name.klen) 262144 (by omega) (by decide)
  split
  · exact (stays_binaryUint32 heap _ _).mono (Nat.zero_le _) (Nat.le_refl _)
  · exact (stays_tlvStringItem _ (adds_append _)).mono (by rw [beBytes_length]; omega)
      (by decide)

lemma stays_binaryInt64 (value : Int64) :
    Stays (serializeBinaryInt64 heap name value) 0 524288 := by
  have short := name.short
  apply stays_numbered (stays_uint32Int64 heap _ value)
  apply stays_item heap (11 + name.klen) 262144 (by omega) (by decide)
  split
  · exact (stays_stringInt32 heap _ _).mono (Nat.zero_le _) (Nat.le_refl _)
  · exact (stays_tlvStringItem _ (adds_append _)).mono (by rw [beBytes_length]; omega)
      (by decide)

lemma stays_binaryFloat :
    Stays (serializeBinaryFloat heap name value) 0 262144 := by
  have short := name.short
  have width := floatField_length value
  apply stays_numbered (stays_uint32Float heap _ value)
  apply stays_item heap (39 + name.klen) 0 (by omega) (by decide)
  exact (stays_tlvStringItem _ (adds_append _)).mono (by omega) (le_refl 0)

lemma stays_binaryDouble (printed : Bytes) :
    Stays (serializeBinaryDouble heap name printed) 0 262144 := by
  have short := name.short
  apply stays_item heap (43 + name.klen) 0 (by omega) (by decide)
  exact stays_failed.mono (Nat.zero_le _) (Nat.le_refl 0)

lemma stays_binaryRaw (value : Blob) (escape : Bool) :
    Stays (serializeBinaryRaw heap name value escape) 0 262144 := by
  have short := name.short
  have short' := value.short
  apply stays_item heap (5 + name.klen + value.bytes.length) 0 (by omega) (by decide)
  exact (stays_tlvStringItem _ (adds_singleString _)).mono (by omega) (le_refl 0)

lemma stays_binaryBinary (value : Blob) :
    Stays (serializeBinaryBinary heap name value) 0 262144 :=
  stays_numbered (stays_uint32Binary heap _ value) (stays_binaryRaw heap name value true)

end

variable (heap : Heap)

lemma stays_boolean (key : Key) (value : UInt8) :
    Stays (serializeKeyed heap key (.boolean value)) 0 0 := by
  apply Stays.congr stays_failed
  intro s fmt
  have other : ¬(s.fmt = .json ∨ s.fmt = .csv) := by rw [fmt]; decide
  cases key <;> exact if_neg other

/-- The mark of a list or block with its name. -/
lemma stays_marked (key : KeyArg) (mark : UInt8) :
    Stays (fun s => (s.reserve heap (16 + key.klen)).andThen fun s =>
      ok (serializeSingleString (s.put mark) key.bytes)) 0 262144 := by
  have short := key.short
  apply stays_reserve heap (16 + key.klen) 0 (fun _ _ => rfl) (by omega) (by decide)
  exact (stays_put (adds_singleString key.bytes)).mono
    (by rw [keyArg_bytes_length]; omega) (le_refl 0)

lemma stays_startOfListBinary (key : KeyArg) :
    Stays (serializeStartOfListBinary heap key) 0 262144 := by
  apply Stays.congr (stays_marked heap key _)
  intro s fmt
  unfold serializeStartOfListBinary
  rw [fmt]

lemma stays_startOfBlockBinary (key : KeyArg) :
    Stays (serializeStartOfBlockBinary heap key) 0 262144 := by
  apply Stays.congr (stays_marked heap key _)
  intro s fmt
  unfold serializeStartOfBlockBinary
  rw [fmt]

lemma adds_nothing : Adds (fun s => s) 0 := fun s contained _ => ⟨contained, .refl s, rfl, rfl⟩

lemma stays_endOfList : Stays serializeEndOfList 0 0 := by
  intro s contained _ below
  unfold serializeEndOfList
  simp only [contained.fmt]
  split
  · exact ⟨contained, .refl s⟩
  · exact stays_put adds_nothing s contained (by omega) below

lemma stays_endOfBlock : Stays (serializeEndOfBlock heap) 0 262144 := by
  apply Stays.congr
  case same =>
    intro s fmt
    unfold serializeEndOfBlock
    rw [fmt]
  apply stays_reserve heap 4 0 (fun _ _ => rfl) (by decide) (by decide)
  exact (stays_put adds_nothing).mono (by decide) (le_refl 0)

lemma stays_endOfRecord : Stays (serializeEndOfRecord heap) 0 262144 := by
  apply stays_reserve heap 1 0 _ (by decide) (by decide)
  · intro s contained free below
    obtain ⟨after, longer⟩ := stays_put adds_nothing s contained
      free below
    simp only [contained.fmt]
    exact ⟨after.withFlags _, longer.withFlags _⟩
  · intro s fmt
    rw [fmt]
    rfl

/-- Every operation but `ndpi_serialize_raw_record` stays inside its buffer,
with any arguments and whatever it returns. -/
lemma apply_stays (op : Op) (plain : ∀ record, op ≠ .rawRecord record) :
    Stays (op.apply heap) 0 524288 := by
  have less : ∀ {f}, Stays f 0 262144 → Stays f 0 524288 := fun stays =>
    stays.mono (le_refl 0) (by decide)
  cases op with
  | item key value =>
    cases value with
    | boolean value => exact (stays_boolean heap key value).mono (le_refl 0) (by decide)
    | uint32 value =>
      cases key with
      | uint32 key => exact less (stays_uint32Uint32 heap key value)
      | binary key => exact less (stays_binaryUint32 heap key value)
    | uint64 value =>
      cases key with
      | uint32 key => exact stays_uint32Uint64 heap key value
      | binary key => exact stays_binaryUint64 heap key value
    | int32 value =>
      cases key with
      | uint32 key => exact less (stays_uint32Int32 heap key value)
      | binary key => exact less (stays_binaryInt32 heap key value)
    | int64 value =>
      cases key with
      | uint32 key => exact stays_uint32Int64 heap key value
      | binary key => exact stays_binaryInt64 heap key value
    | float value =>
      cases key with
      | uint32 key => exact less (stays_uint32Float heap key value)
      | binary key => exact less (stays_binaryFloat heap key value)
    | double value =>
      cases key with
      | uint32 key => exact less (stays_uint32Double heap key)
      | binary key => exact less (stays_binaryDouble heap key value)
    | binary value =>
      cases key with
      | uint32 key => exact less (stays_uint32Binary heap key value)
      | binary key => exact less (stays_binaryBinary heap key value)
  | stringInt32 key value => exact less (stays_stringInt32 heap key value)
  | stringStringLen key value =>
    apply Stays.congr (less (stays_binaryBinary heap (.ofString key) value))
    intro s fmt
    exact if_neg (by rw [fmt]; decide)
  | stringRaw key value => exact less (stays_binaryRaw heap (.ofString key) value false)
  | stringUint32Format key value printed =>
    apply Stays.congr (less (stays_binaryBinary heap (.ofString key) (.ofString (printed.take 15))))
    intro s fmt
    have notJson : ¬s.fmt = .json := by rw [fmt]; decide
    have notCsv : ¬s.fmt = .csv := by rw [fmt]; decide
    exact (if_neg notJson).trans (if_neg notCsv)
  | startOfList key => exact less (stays_startOfListBinary heap key)
  | endOfList => exact stays_endOfList.mono (le_refl 0) (by decide)
  | startOfBlock key => exact less (stays_startOfBlockBinary heap key)
  | startOfBlockUint32 key => exact less (stays_startOfBlockBinary heap (.ofUint32 key))
  | endOfBlock => exact less (stays_endOfBlock heap)
  | endOfRecord => exact less (stays_endOfRecord heap)
  | rawRecord record => exact absurd rfl (plain record)

lemma serializeRawRecord_tlv (record : RawRecord)
    (short : record.bytes.length < 65536) (s : Serializer) (fmt : s.fmt = .tlv) :
    serializeRawRecord heap record s =
      (s.reserve heap record.bytes.length).andThen fun r =>
        ok (serializeEndOfRecord heap (r.append record.bytes)).ser := by
  have other : ¬s.fmt = .json := by rw [fmt]; decide
  have needed : wrap16 (record.bytes.length + 0) = record.bytes.length := Nat.mod_eq_of_lt short
  have same := reserve_fmt s heap record.bytes.length
  unfold serializeRawRecord
  simp only [other, false_and, if_false, needed]
  show (s.reserve heap record.bytes.length).andThen _ = _
  unfold Outcome.andThen
  split
  · have later : ¬(s.reserve heap record.bytes.length).ser.fmt = .json := by rw [same]; exact other
    have last : ¬((s.reserve heap record.bytes.length).ser.append record.bytes).fmt = .json := later
    simp [later, last]
  · rfl

/-- So does a raw record whose length 16 bits can count. -/
lemma stays_rawRecord (short : record.bytes.length < 65536) :
    Stays (serializeRawRecord heap record) 0 524288 := by
  apply Stays.congr _ (serializeRawRecord_tlv heap record short)
  apply stays_reserve heap record.bytes.length 262144 (fun _ _ => rfl) (by omega) (by decide)
  intro s contained free below
  obtain ⟨copied, longer, -, size⟩ := adds_append record.bytes s contained free
  obtain ⟨after, longer'⟩ := stays_endOfRecord heap (s.append record.bytes) copied
    copied.sound.inside (le_trans (le_of_eq (by rw [size])) below)
  exact ⟨after, longer.trans longer'⟩

end Ndpi.Refinement
