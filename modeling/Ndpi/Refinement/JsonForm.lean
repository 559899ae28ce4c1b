import Ndpi.Refinement.TlvWrite

/-!
# The JSON form of an operation

On a JSON serializer every operation but `ndpi_serialize_raw_record` reserves
space and then does one of six things. `JsonForm` is which one, with the pieces
of text it writes; the families of functions that differ in their key and value
types come down to one form.
-/
namespace Ndpi.Refinement
open Lib Source.Serialization

inductive JsonKey where
  | number (key : UInt32)
  | name (bytes : Bytes)
  deriving DecidableEq

/-- A value that `snprintf` prints, one that is escaped as a string, or one that
is copied as it is. -/
inductive JsonValue where
  | printed (text : Bytes)
  | string (bytes : Bytes)
  | raw (bytes : Bytes)
  deriving DecidableEq

inductive JsonForm where
  | item (key : JsonKey) (value : JsonValue)
  | startOfList (name : Bytes)
  | endOfList
  | startOfBlock (name : Bytes)
  | endOfBlock
  | endOfRecord
  deriving DecidableEq

def JsonKey.chunks : JsonKey → List Chunk
  | .number key => uint32Key key
  | .name bytes => [.escape bytes, .put 0x3A]

def JsonValue.chunk : JsonValue → Chunk
  | .printed text => .print text
  | .string bytes => .escape bytes
  | .raw bytes => .copy bytes

/-- What an operation of this form does once the space is reserved. -/
def JsonForm.body : JsonForm → Serializer → Outcome
  | .item key value, s =>
    (jsonItem key.chunks [value.chunk] s).andThen fun s =>
      ok { s with status.flags.notEmpty := true }
  | .startOfList name, s =>
    (Serializer.emitAll [.escape name, .print [0x3A, 0x20, 0x5B]] (serializeJsonPre s)).andThen
      fun s => serializeJsonPost { s with status.flags.list := true, status.flags.sol := true }
  | .endOfList, s => ok { s with status.flags.sol := false, status.flags.list := false }
  | .startOfBlock name, s =>
    (Serializer.emitAll [.escape name, .print [0x3A, 0x20, 0x7B]] (serializeJsonPre s)).andThen
      fun s => (serializeJsonPost s).andThen fun s => ok { s with status.flags.sob := true }
  | .endOfBlock, s =>
    serializeJsonPost { s with status.flags.sob := false, status.flags.ceob := true }
  | .endOfRecord, s => ok { endOfRecordJson s with status.flags.notEmpty := false }

/-- The key under which a value is written; a key of digits only is a number. -/
def Key.jsonKey : Key → JsonKey
  | .uint32 key => .number key
  | .binary key => if isNumber key.bytes then .number (atoi key.memory) else .name key.bytes

/-- The value's text. -/
def Scalar.jsonValue : Scalar → JsonValue
  | .uint32 value => .printed (decimal value.toNat)
  | .uint64 value => .printed (decimal value.toNat)
  | .int32 value => .printed (decimalInt value.toInt)
  | .int64 value => .printed (decimalInt value.toInt)
  | .float value => .printed value.printed
  | .double printed => .printed printed
  | .binary value => .string value.bytes
  | .boolean value => .printed (booleanText value)

/-- Doubles are written under a string key as it is. -/
def itemForm : Key → Scalar → JsonForm
  | .binary key, .double printed => .item (.name key.bytes) (.printed printed)
  | key, value => .item (Key.jsonKey key) (Scalar.jsonValue value)

def Op.jsonForm : Op → Option JsonForm
  | .item key value => some (itemForm key value)
  | .stringInt32 key value => some (itemForm (.binary (.ofString key)) (.int32 value))
  | .stringStringLen key value => some (itemForm (.binary (.ofString key)) (.binary value))
  | .stringRaw key value => some (.item (.name (KeyArg.ofString key).bytes) (.raw value.bytes))
  | .stringUint32Format key value _ => some (itemForm (.binary (.ofString key)) (.uint32 value))
  | .startOfList key => some (.startOfList key.bytes)
  | .endOfList => some .endOfList
  | .startOfBlock key => some (.startOfBlock key.bytes)
  | .startOfBlockUint32 key => some (.startOfBlock (decimal key.toNat))
  | .endOfBlock => some .endOfBlock
  | .endOfRecord => some .endOfRecord
  | .rawRecord _ => none

lemma itemForm_item (key : Key) (value : Scalar) : ∃ k v, itemForm key value = .item k v := by
  cases key <;> cases value <;> exact ⟨_, _, rfl⟩

/-- The form tells the operations that end a list or a record. -/
lemma jsonForm_ends :
    (Op.jsonForm op = some .endOfList → op = .endOfList) ∧
      (Op.jsonForm op = some .endOfRecord → op = .endOfRecord) := by
  cases op with
  | endOfList => exact ⟨fun _ => rfl, nofun⟩
  | endOfRecord => exact ⟨nofun, fun _ => rfl⟩
  | item key value =>
    obtain ⟨_, _, form⟩ := itemForm_item key value
    rw [Op.jsonForm, form]
    exact ⟨nofun, nofun⟩
  | _ => exact ⟨nofun, nofun⟩

/-- The length of a key's text at most. -/
def JsonKey.most : JsonKey → Nat
  | .number _ => 13
  | .name bytes => 2 * bytes.length + 3

/-- Space that is reserved in any case: an escaped value ends with an unchecked
store, so all of it is accounted for. -/
def JsonForm.least : JsonForm → Nat
  | .item key (.string bytes) => key.most + 2 * bytes.length + 6
  | .item _ _ | .startOfList _ | .startOfBlock _ | .endOfRecord => 2
  | .endOfList | .endOfBlock => 0

/-- On a JSON serializer `f` reserves space and does what the form says. -/
def TakesForm (heap : Heap) (f : Serializer → Outcome) (form : JsonForm) : Prop :=
  ∀ s, s.fmt = .json → ∃ needed, form.least ≤ needed ∧ needed ≤ 1048576 ∧
    f s = (s.reserve heap needed).andThen form.body

lemma andThen_congr {o : Outcome} {f g : Serializer → Outcome} (same : f o.ser = g o.ser) :
    o.andThen f = o.andThen g := by
  unfold Outcome.andThen
  split
  · exact same
  · rfl

section
variable (heap : Heap)

lemma takesForm_serializeItem {needed : Serializer → Nat} {csv tlv : Serializer → Outcome}
    (key : JsonKey) (value : JsonValue)
    (fits : ∀ s, s.fmt = .json → (JsonForm.item key value).least ≤ needed s ∧ needed s ≤ 1048576) :
    TakesForm heap (fun s => serializeItem heap (needed s) (jsonItem key.chunks [value.chunk])
      csv tlv s) (.item key value) := by
  intro s fmt
  refine ⟨needed s, (fits s fmt).1, (fits s fmt).2, ?_⟩
  have same := reserve_fmt s heap (needed s)
  unfold serializeItem
  apply andThen_congr
  simp only [same, fmt]
  rfl

lemma TakesForm.congr (takes : TakesForm heap g form) (same : ∀ s, s.fmt = .json → f s = g s) :
    TakesForm heap f form := by
  intro s fmt
  rw [same s fmt]
  exact takes s fmt

lemma jsonRoom_fits {s : Serializer} {least base extra : Nat} (fmt : s.fmt = .json)
    (enough : least ≤ base + extra) (modest : base + extra ≤ 1048576) :
    least ≤ base + s.jsonRoom extra ∧ base + s.jsonRoom extra ≤ 1048576 := by
  rw [Serializer.jsonRoom, if_pos fmt]
  exact ⟨enough, modest⟩

lemma takesForm_uint32 (key : UInt32) (value : Scalar) :
    TakesForm heap (serializeKeyed heap (.uint32 key) value) (itemForm (.uint32 key) value) := by
  cases value with
  | uint32 _ | uint64 _ | int32 _ | int64 _ | float _ | double _ =>
    exact takesForm_serializeItem heap (.number key) (.printed _) fun _ fmt =>
      jsonRoom_fits fmt (by simp only [JsonForm.least]; omega) (by decide)
  | binary value =>
    have short := value.short
    exact takesForm_serializeItem heap (.number key) (.string _) fun _ fmt =>
      jsonRoom_fits fmt (by simp only [JsonForm.least, JsonKey.most]; omega) (by omega)
  | boolean value =>
    apply TakesForm.congr heap (takesForm_serializeItem heap (.number key) (.printed _)
      fun _ _ => (by decide : 2 ≤ 24 ∧ 24 ≤ 1048576))
    intro s fmt
    show serializeUint32Boolean heap key value s = _
    unfold serializeUint32Boolean
    rw [if_pos (.inl fmt)]
    rfl

variable (key : KeyArg)

/-- A key of digits only is handed to the function for integer keys. -/
lemma serializeKeyed_number (number : isNumber key.bytes = true) (value : Scalar)
    (other : ∀ printed, value ≠ .double printed) (s : Serializer) (fmt : s.fmt = .json) :
    serializeKeyed heap (.binary key) value s =
      serializeKeyed heap (.uint32 (atoi key.memory)) value s := by
  cases value with
  | uint32 value =>
    show serializeBinaryUint32 heap key value s = serializeUint32Uint32 heap _ value s
    unfold serializeBinaryUint32
    rw [if_neg (by rw [fmt]; decide), if_pos number]
  | boolean value =>
    show serializeBinaryBoolean heap key value s = serializeUint32Boolean heap _ value s
    unfold serializeBinaryBoolean
    rw [if_pos (.inl fmt), if_pos number]
  | double printed => exact absurd rfl (other printed)
  | _ => exact if_pos number

lemma itemForm_number (number : isNumber key.bytes = true)
    (other : ∀ printed, value ≠ .double printed) :
    itemForm (.binary key) value = itemForm (.uint32 (atoi key.memory)) value := by
  cases value with
  | double printed => exact absurd rfl (other printed)
  | _ => simp [itemForm, Key.jsonKey, if_pos number]

/-- A value that is printed behind a string key. -/
lemma takesForm_printed {f csv tlv : Serializer → Outcome}
    (modest : 2 ≤ base ∧ base + extra ≤ 1024)
    (same : ∀ s, f s = serializeItem heap (base + key.klen + s.jsonRoom (extra + key.klen))
      (jsonItem (stringKey key) [.print text]) csv tlv s) :
    TakesForm heap f (.item (.name key.bytes) (.printed text)) := by
  have short := key.short
  have least : 2 ≤ base + key.klen + (extra + key.klen) := by omega
  apply TakesForm.congr heap (takesForm_serializeItem heap (.name key.bytes) (.printed text)
    fun _ fmt => jsonRoom_fits fmt least (by omega))
  intro s _
  exact same s

/-- Under any other key the function for string keys writes the value itself. -/
lemma takesForm_name (plain : isNumber key.bytes = false) (value : Scalar) :
    TakesForm heap (serializeKeyed heap (.binary key) value) (itemForm (.binary key) value) := by
  have short := key.short
  have no : ¬isNumber key.bytes = true := by rw [plain]; decide
  have shape : Key.jsonKey (.binary key) = .name key.bytes := by rw [Key.jsonKey, if_neg no]
  cases value with
  | uint32 value =>
    simp only [itemForm, shape]
    apply TakesForm.congr heap (takesForm_serializeItem heap (.name key.bytes) (.printed _)
      fun _ _ => (by omega : 2 ≤ 43 + key.klen ∧ 43 + key.klen ≤ 1048576))
    intro s fmt
    show serializeBinaryUint32 heap key value s = _
    unfold serializeBinaryUint32
    rw [if_neg (by rw [fmt]; decide), if_neg no]
    rfl
  | uint64 value =>
    simp only [itemForm, shape]
    exact takesForm_printed heap key (by decide) fun _ => if_neg no
  | int32 value =>
    simp only [itemForm, shape]
    exact takesForm_printed heap key (by decide) fun _ => if_neg no
  | int64 value =>
    simp only [itemForm, shape]
    exact takesForm_printed heap key (by decide) fun _ => if_neg no
  | float value =>
    simp only [itemForm, shape]
    exact takesForm_printed heap key (by decide) fun _ => if_neg no
  | double printed =>
    exact takesForm_serializeItem heap (.name key.bytes) (.printed _) fun _ fmt =>
      jsonRoom_fits fmt (by simp only [JsonForm.least]; omega) (by omega)
  | binary value =>
    have short' := value.short
    simp only [itemForm, shape]
    have length := keyArg_bytes_length key
    apply TakesForm.congr heap (takesForm_serializeItem heap (.name key.bytes) (.string _)
      fun _ fmt => jsonRoom_fits fmt (by simp only [JsonForm.least, JsonKey.most]; omega)
        (by omega : 5 + key.klen + value.bytes.length +
          (16 + key.klen + value.bytes.length) ≤ 1048576))
    intro s _
    exact if_neg no
  | boolean value =>
    simp only [itemForm, shape]
    apply TakesForm.congr heap (takesForm_serializeItem heap (.name key.bytes) (.printed _)
      fun _ _ => (by omega : 2 ≤ key.klen + 16 ∧ key.klen + 16 ≤ 1048576))
    intro s fmt
    show serializeBinaryBoolean heap key value s = _
    unfold serializeBinaryBoolean
    rw [if_pos (.inl fmt), if_neg no]
    rfl

lemma takesForm_item (key : Key) (value : Scalar) :
    TakesForm heap (serializeKeyed heap key value) (itemForm key value) := by
  cases key with
  | uint32 key => exact takesForm_uint32 heap key value
  | binary key =>
    by_cases number : isNumber key.bytes = true
    · by_cases double : ∃ printed, value = .double printed
      · obtain ⟨printed, rfl⟩ := double
        have short := key.short
        exact takesForm_serializeItem heap (.name key.bytes) (.printed _) fun _ fmt =>
          jsonRoom_fits fmt (by simp only [JsonForm.least]; omega) (by omega)
      · have other : ∀ printed, value ≠ .double printed := fun printed same =>
          double ⟨printed, same⟩
        rw [itemForm_number key number other]
        exact (takesForm_uint32 heap _ value).congr heap
          (serializeKeyed_number heap key number value other)
    · exact takesForm_name heap key (Bool.eq_false_iff.mpr number) value

end

/-- An operation without a space of its own to reserve. -/
lemma reserve_nothing (s : Serializer) (heap : Heap) : s.reserve heap 0 = ok s :=
  if_neg (Nat.not_lt_zero _)

lemma ofUint32_bytes (key : UInt32) : (KeyArg.ofUint32 key).bytes = decimal key.toNat :=
  List.take_length

lemma takesForm_startOfBlock (key : KeyArg) :
    TakesForm heap (serializeStartOfBlockBinary heap key) (.startOfBlock key.bytes) := by
  intro s fmt
  have short := key.short
  refine ⟨16 + key.klen, by simp only [JsonForm.least]; omega, by omega, ?_⟩
  unfold serializeStartOfBlockBinary
  rw [fmt]
  rfl

/-- Every operation with a JSON form takes it. -/
lemma apply_takesForm (heap : Heap) (op : Op) {form : JsonForm}
    (shape : Op.jsonForm op = some form) : TakesForm heap (op.apply heap) form := by
  cases op with
  | item key value =>
    cases shape
    exact takesForm_item heap key value
  | stringInt32 key value =>
    cases shape
    apply (takesForm_item heap (.binary (.ofString key)) (.int32 value)).congr heap
    intro s fmt
    exact if_neg (by rw [fmt]; decide)
  | stringStringLen key value =>
    cases shape
    apply (takesForm_item heap (.binary (.ofString key)) (.binary value)).congr heap
    intro s fmt
    exact if_neg (by rw [fmt]; decide)
  | stringRaw key value =>
    cases shape
    have short := (KeyArg.ofString key).short
    have short' := value.short
    apply TakesForm.congr heap (takesForm_serializeItem heap (.name _) (.raw _)
      fun _ fmt => jsonRoom_fits fmt (by simp only [JsonForm.least]; omega)
        (by omega : 5 + (KeyArg.ofString key).klen + value.bytes.length +
          (16 + (KeyArg.ofString key).klen + value.bytes.length) ≤ 1048576))
    intro s _
    show serializeBinaryRaw heap (.ofString key) value false s = _
    unfold serializeBinaryRaw
    rfl
  | stringUint32Format key value printed =>
    cases shape
    apply (takesForm_item heap (.binary (.ofString key)) (.uint32 value)).congr heap
    intro s fmt
    exact if_pos fmt
  | startOfList key =>
    cases shape
    intro s fmt
    have short := key.short
    refine ⟨16 + key.klen, by simp only [JsonForm.least]; omega, by omega, ?_⟩
    show serializeStartOfListBinary heap key s = _
    unfold serializeStartOfListBinary
    rw [fmt]
    rfl
  | endOfList =>
    cases shape
    intro s fmt
    refine ⟨0, Nat.le_refl _, by omega, ?_⟩
    show serializeEndOfList s = _
    rw [reserve_nothing]
    unfold serializeEndOfList
    simp [fmt, Outcome.andThen, ok, JsonForm.body]
  | startOfBlock key =>
    cases shape
    exact takesForm_startOfBlock key
  | startOfBlockUint32 key =>
    cases shape
    rw [← ofUint32_bytes]
    exact takesForm_startOfBlock (.ofUint32 key)
  | endOfBlock =>
    cases shape
    intro s fmt
    refine ⟨4, Nat.zero_le _, by omega, ?_⟩
    show serializeEndOfBlock heap s = _
    unfold serializeEndOfBlock
    rw [fmt]
    rfl
  | endOfRecord =>
    cases shape
    intro s fmt
    refine ⟨2, Nat.le_refl _, by omega, ?_⟩
    show serializeEndOfRecord heap s = _
    unfold serializeEndOfRecord
    rw [if_pos (.inl fmt)]
    apply andThen_congr
    simp only [reserve_fmt, fmt]
    rfl
  | rawRecord record => cases shape

end Ndpi.Refinement
