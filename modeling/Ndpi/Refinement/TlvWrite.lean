import Ndpi.Refinement.Buffer
import Ndpi.Refinement.TlvItem

/-!
# The TLV operations append items

A small logic for the TLV branch of the operations: `Appends f bytes` says that
whenever `f` returns 0 without a stray store, it has added exactly `bytes` to the
text. The rules follow the shape of the source functions, and `apply_appends`
assembles them for every operation of the interface.
-/
namespace Ndpi.Refinement
open Lib Source.Serialization List Memory

/-- From `s` to `t` the text grew by `bytes`. -/
structure Extends (s t : Serializer) (bytes : Bytes) : Prop where
  sound : Sound s
  clean : Clean s
  fmt : t.fmt = .tlv
  after : Sound t
  text : t.text = s.text ++ bytes

variable {bytes : Bytes}

/-- The flags play no part in the text. -/
lemma Extends.withFlags (step : Extends s t bytes) (flags : StatusFlags) :
    Extends s { t with status := ⟨flags, t.status.used, t.status.headerUsed⟩ } bytes :=
  ⟨step.sound, step.clean, step.fmt,
    ⟨⟨step.after.cells, step.after.size, step.after.used⟩, step.after.inside⟩, step.text⟩

def Appends (f : Serializer → Outcome) (bytes : Bytes) : Prop :=
  ∀ s, s.fmt = .tlv → Shaped s → (f s).rc = 0 → Clean (f s).ser → Extends s (f s).ser bytes

/-- A part of an operation that only copies to the end of the text. -/
structure Writes (f : Serializer → Serializer) (bytes : Bytes) : Prop where
  clean : ∀ s, Clean (f s) → Clean s
  length : ∀ s, (f s).buffer.data.cells.length = s.buffer.data.cells.length
  spec : ∀ s, Sound s → Clean (f s) →
    Sound (f s) ∧ (f s).fmt = s.fmt ∧ (f s).text = s.text ++ bytes

lemma append_clean (clean : Clean (s.append bytes)) :
    Clean s := (storeAll_clean bytes s.buffer.data s.status.used clean).1

lemma writes_append (bytes : Bytes) : Writes (·.append bytes) bytes where
  clean := fun _ => append_clean
  length := fun s => storeAll_length bytes s.buffer.data s.status.used
  spec := by
    intro s sound clean
    obtain ⟨-, after, text⟩ := append_spec sound clean
    exact ⟨after, rfl, text⟩

lemma writes_comp (left : Writes f first) (right : Writes g second) :
    Writes (fun s => g (f s)) (first ++ second) where
  clean := fun s clean => left.clean s (right.clean (f s) clean)
  length := fun s => (right.length (f s)).trans (left.length s)
  spec := by
    intro s sound clean
    obtain ⟨middle, fmt, text⟩ := left.spec s sound (right.clean (f s) clean)
    obtain ⟨after, fmt', text'⟩ := right.spec (f s) middle clean
    refine ⟨after, fmt'.trans fmt, ?_⟩
    rw [text', text, append_assoc]

lemma writes_singleString (bytes : Bytes) :
    Writes (serializeSingleString · bytes) (stringField bytes) :=
  writes_comp (writes_append (beBytes 2 bytes.length)) (writes_append bytes)

variable {rest : Serializer → Serializer}

/-- A byte followed by copies, starting from a state that is only `Shaped`: the
byte itself shows that the text ended inside the allocation. -/
lemma appends_put (writes : Writes rest bytes) :
    Appends (fun s => ok (rest (s.put byte))) (byte :: bytes) := by
  intro s fmt shaped _ clean
  have first : Clean (s.append [byte]) := writes.clean _ clean
  have sound := (append_inside shaped (by simp) first).1
  have both := (writes_comp (writes_append [byte]) writes).spec s sound clean
  exact ⟨sound, append_clean first, both.2.1.trans fmt, both.1, both.2.2⟩

lemma store_text {s : Serializer} {index : Nat} (byte : UInt8)
    (inside : index < s.buffer.data.cells.length) :
    (s.storeAll index [byte]).text = s.text.set index byte := by
  have stored := store_inside s.buffer.data index byte inside
  simp [Serializer.text, Serializer.storeAll, Memory.storeAll, stored, take_set]

/-- The integer-key layout: the type byte is stored last, at the offset that was
skipped first. -/
lemma appends_backpatched (byte : UInt8) (writes : Writes rest bytes) :
    Appends (fun s => ok ((rest (s.advance 1)).storeAll s.status.used [byte])) (byte :: bytes) := by
  intro s fmt shaped _ clean
  obtain ⟨written, inside⟩ := store_clean (rest (s.advance 1)).buffer.data s.status.used byte clean
  have length : (rest (s.advance 1)).buffer.data.cells.length = s.buffer.size :=
    (writes.length _).trans shaped.cells
  have size := shaped.size
  have skipped : (s.advance 1).status.used = s.status.used + 1 := wrap32_of_lt (by omega)
  have start : Sound (s.advance 1) := by
    refine ⟨shaped.advance 1, ?_⟩
    rw [skipped]
    exact length ▸ inside
  obtain ⟨after, fmt', text⟩ := writes.spec (s.advance 1) start written
  have sound : Sound s := ⟨shaped, by omega⟩
  have first : (s.advance 1).text = s.text ++ [s.buffer.data.cells[s.status.used]?.getD 0] := by
    have here : s.status.used < s.buffer.data.cells.length := by rw [shaped.cells]; omega
    rw [Serializer.text, skipped, getElem?_eq_getElem here, Option.getD_some]
    exact take_succ_eq_append_getElem here
  refine ⟨sound, writes.clean (s.advance 1) written, fmt'.trans fmt,
    ⟨after.toShaped.storeAll _ _, after.inside⟩, ?_⟩
  show ((rest (s.advance 1)).storeAll s.status.used [byte]).text = s.text ++ byte :: bytes
  rw [store_text _ inside, text, first, ← sound.text_length]
  simp

variable {needed : Serializer → Nat}

/-- Reserving space first changes nothing about what is appended. -/
lemma appends_reserve (heap : Heap) (modest : ∀ s, needed s ≤ 1048576) (body : Appends f bytes) :
    Appends (fun s => (s.reserve heap (needed s)).andThen f) bytes := by
  intro s fmt shaped success clean
  unfold Outcome.andThen at success clean ⊢
  by_cases granted : (s.reserve heap (needed s)).rc = 0
  · simp only [granted, if_true] at success clean ⊢
    have reserved := reserve_spec shaped (modest s) granted
    generalize (s.reserve heap (needed s)).ser = r at reserved success clean ⊢
    have sameFmt : r.fmt = s.fmt := by rw [reserved.same]
    have sameUsed : r.status.used = s.status.used := by rw [reserved.same]
    have step := body r (sameFmt.trans fmt) reserved.shaped success clean
    have fits := step.sound.inside
    rw [sameUsed] at fits
    have inside : s.status.used ≤ s.buffer.size := by
      rcases reserved.room with ⟨inside, -⟩ | ⟨outside, -⟩
      · exact inside
      · omega
    refine ⟨⟨shaped, inside⟩, ?_, step.fmt, step.after, ?_⟩
    · have before := step.clean
      rw [Clean, reserved.stray] at before
      exact before
    · rw [step.text, reserved.kept inside fits]
  · simp only [granted, if_false] at success

lemma appends_serializeItem (heap : Heap)
    (modest : ∀ s, needed s ≤ 1048576) (body : Appends tlv bytes) :
    Appends (fun s => serializeItem heap (needed s) json csv tlv s) bytes := by
  apply appends_reserve heap modest
  intro s fmt shaped success clean
  simp only [fmt, Outcome.andThen] at success clean ⊢
  by_cases inner : (tlv s).rc = 0
  · simp only [inner, if_true] at clean ⊢
    exact (body s fmt shaped inner clean).withFlags _
  · simp only [inner, if_false] at success

lemma serializeKeyUint32_eq (s : Serializer) (key : UInt32) :
    serializeKeyUint32 s key = ((uint32Field key).1, s.append (uint32Field key).2) := by
  unfold serializeKeyUint32 uint32Field
  split
  · rfl
  · split <;> rfl

variable {value : Serializer → Serializer}

lemma appends_tlvUint32Item (key : UInt32) (et : ItemType) (writes : Writes value bytes) :
    Appends (tlvUint32Item key et value)
      (typeByte (uint32Field key).1 et :: ((uint32Field key).2 ++ bytes)) := by
  have both := writes_comp (writes_append (uint32Field key).2) writes
  have body := appends_backpatched (typeByte (uint32Field key).1 et) both
  intro s fmt shaped success clean
  simp only [tlvUint32Item, serializeKeyUint32_eq] at success clean ⊢
  exact body s fmt shaped success clean

lemma appends_tlvStringItem (writes : Writes value bytes) :
    Appends (tlvStringItem key et value)
      (typeByte .string et :: (stringField key.bytes ++ bytes)) :=
  appends_put (writes_comp (writes_singleString key.bytes) writes)

lemma jsonRoom_le (s : Serializer) (extra : Nat) : s.jsonRoom extra ≤ extra := by
  unfold Serializer.jsonRoom
  split <;> omega

section

variable (heap : Heap) (key : UInt32) (name : KeyArg)

/-- The space is enough for what an operation writes in any format. -/
lemma appends_item {bytes : Bytes} (modest : base + extra ≤ 1048576) (body : Appends tlv bytes) :
    Appends (fun s => serializeItem heap (base + s.jsonRoom extra) json csv tlv s) bytes := by
  apply appends_serializeItem heap _ body
  intro s
  have room := jsonRoom_le s extra
  omega

lemma appends_uint32Uint32 (value : UInt32) :
    Appends (serializeUint32Uint32 heap key value)
      (Item.field (.uint32 key) (.uint32 value)).encode :=
  appends_item heap (by decide) (appends_tlvUint32Item key _ (writes_append _))

lemma appends_uint32Int32 (value : Int32) :
    Appends (serializeUint32Int32 heap key value)
      (Item.field (.uint32 key) (.int32 value)).encode :=
  appends_item heap (by decide) (appends_tlvUint32Item key _ (writes_append _))

lemma appends_uint32Uint64 (value : UInt64) :
    Appends (serializeUint32Uint64 heap key value)
      (Item.field (.uint32 key) (.ofUint64 value)).encode := by
  apply appends_item heap (by decide)
  split
  · rw [ItemValue.ofUint64, dif_neg (by omega)]
    exact appends_uint32Uint32 heap key _
  · rw [ItemValue.ofUint64, dif_pos (by omega)]
    exact appends_tlvUint32Item key _ (writes_append _)

lemma appends_uint32Int64 (value : Int64) :
    Appends (serializeUint32Int64 heap key value)
      (Item.field (.uint32 key) (.ofInt64 value)).encode := by
  apply appends_item heap (by decide)
  split
  · next fits =>
    rw [ItemValue.ofInt64, dif_neg (by rw [fits]; decide)]
    exact appends_uint32Int32 heap key _
  · next fits =>
    rw [ItemValue.ofInt64, dif_pos (Bool.eq_false_iff.mpr fits)]
    exact appends_tlvUint32Item key _ (writes_append _)

lemma appends_uint32Float (value : FloatArg) :
    Appends (serializeUint32Float heap key value)
      (Item.field (.uint32 key) (.float value.bits)).encode :=
  appends_item heap (by decide) (appends_tlvUint32Item key _ (writes_append _))

lemma appends_uint32Binary (value : Blob) :
    Appends (serializeUint32Binary heap key value)
      (Item.field (.uint32 key) (.string value)).encode := by
  have short := value.short
  exact appends_item heap (by omega) (appends_tlvUint32Item key _ (writes_singleString _))

variable {f g : Serializer → Outcome}

/-- On a key that is no number a binary-key function is its own body. -/
lemma Appends.congr {bytes : Bytes} (body : Appends g bytes)
    (same : ∀ s, s.fmt = .tlv → f s = g s) : Appends f bytes := by
  intro s fmt shaped success clean
  rw [same s fmt] at success clean ⊢
  exact body s fmt shaped success clean

variable (plain : isNumber name.bytes = false)
include plain

lemma appends_unnumbered {bytes : Bytes} (body : Appends g bytes) :
    Appends (fun s => if isNumber name.bytes then f s else g s) bytes := by
  simpa [plain] using body

lemma appends_binaryUint32 (value : UInt32) :
    Appends (serializeBinaryUint32 heap name value)
      (Item.field (.string (KeyArg.blob name)) (.uint32 value)).encode := by
  apply Appends.congr
  case same =>
    intro s fmt
    unfold serializeBinaryUint32
    rw [if_neg (by rw [fmt]; decide), if_neg (by rw [plain]; decide)]
  apply appends_serializeItem heap
  · intro s
    have short := name.short
    omega
  · exact appends_tlvStringItem (writes_append _)

lemma appends_binaryInt32 (value : Int32) :
    Appends (serializeBinaryInt32 heap name value)
      (Item.field (.string (KeyArg.blob name)) (.int32 value)).encode := by
  have short := name.short
  apply appends_unnumbered name plain
  exact appends_item heap (by omega) (appends_tlvStringItem (writes_append _))

lemma appends_binaryFloat (value : FloatArg) :
    Appends (serializeBinaryFloat heap name value)
      (Item.field (.string (KeyArg.blob name)) (.float value.bits)).encode := by
  have short := name.short
  apply appends_unnumbered name plain
  exact appends_item heap (by omega) (appends_tlvStringItem (writes_append _))

lemma appends_stringInt32 (measured : strlen name.memory = name.klen) (value : Int32) :
    Appends (serializeStringInt32 heap name.memory value)
      (Item.field (.string (KeyArg.blob name)) (.int32 value)).encode := by
  apply Appends.congr
  case same =>
    intro s fmt
    unfold serializeStringInt32
    rw [if_neg (by rw [fmt]; decide), keyArg_ofString_memory measured]
  exact appends_binaryInt32 heap name plain value

lemma appends_binaryUint64 (value : UInt64)
    (measured : Scalar.Narrow (.uint64 value) → strlen name.memory = name.klen) :
    Appends (serializeBinaryUint64 heap name value)
      (Item.field (.string (KeyArg.blob name)) (.ofUint64 value)).encode := by
  have short := name.short
  apply appends_unnumbered name plain
  apply appends_item heap (by omega)
  by_cases small : value.toNat ≤ 0xFFFFFFFF
  · have narrow : Scalar.Narrow (.uint64 value) := Nat.lt_succ_of_le small
    rw [if_pos small, ItemValue.ofUint64, dif_neg (by omega)]
    unfold serializeStringUint32
    rw [keyArg_ofString_memory (measured narrow)]
    exact appends_binaryUint32 heap name plain _
  · rw [if_neg small, ItemValue.ofUint64, dif_pos (by omega)]
    exact appends_tlvStringItem (writes_append _)

lemma appends_binaryInt64 (value : Int64)
    (measured : Scalar.Narrow (.int64 value) → strlen name.memory = name.klen) :
    Appends (serializeBinaryInt64 heap name value)
      (Item.field (.string (KeyArg.blob name)) (.ofInt64 value)).encode := by
  have short := name.short
  apply appends_unnumbered name plain
  apply appends_item heap (by omega)
  split
  · next fits =>
    rw [ItemValue.ofInt64, dif_neg (by rw [fits]; decide)]
    exact appends_stringInt32 heap name plain (measured fits) _
  · next fits =>
    rw [ItemValue.ofInt64, dif_pos (Bool.eq_false_iff.mpr fits)]
    exact appends_tlvStringItem (writes_append _)

omit plain in
lemma appends_binaryRaw (value : Blob) (escape : Bool) :
    Appends (serializeBinaryRaw heap name value escape)
      (Item.field (.string (KeyArg.blob name)) (.string value)).encode := by
  have short := name.short
  have short' := value.short
  exact appends_item heap (by omega) (appends_tlvStringItem (writes_singleString _))

lemma appends_binaryBinary (value : Blob) :
    Appends (serializeBinaryBinary heap name value)
      (Item.field (.string (KeyArg.blob name)) (.string value)).encode :=
  appends_unnumbered name plain (appends_binaryRaw heap name value true)

end

variable (heap : Heap)

lemma appends_marked (key : KeyArg) :
    Appends (fun s => (s.reserve heap (16 + key.klen)).andThen fun s =>
      ok (serializeSingleString (s.put mark) key.bytes)) (mark :: stringField key.bytes) := by
  have short := key.short
  exact appends_reserve heap (fun _ => by omega) (appends_put (writes_singleString _))

lemma appends_startOfListBinary (key : KeyArg) :
    Appends (serializeStartOfListBinary heap key) (Item.startOfList (KeyArg.blob key)).encode := by
  apply Appends.congr (appends_marked heap key)
  intro s fmt
  unfold serializeStartOfListBinary
  rw [fmt]
  rfl

lemma appends_startOfBlockBinary (key : KeyArg) :
    Appends (serializeStartOfBlockBinary heap key)
      (Item.startOfBlock (KeyArg.blob key)).encode := by
  apply Appends.congr (appends_marked heap key)
  intro s fmt
  unfold serializeStartOfBlockBinary
  rw [fmt]
  rfl

lemma writes_nothing : Writes (fun s => s) [] where
  clean := fun _ clean => clean
  length := fun _ => rfl
  spec := fun s sound _ => ⟨sound, rfl, (append_nil s.text).symm⟩

lemma appends_endOfList : Appends serializeEndOfList Item.endOfList.encode := by
  intro s fmt shaped success clean
  unfold serializeEndOfList at success clean ⊢
  simp only [fmt] at success clean ⊢
  by_cases full : s.status.used = s.buffer.size
  · rw [if_pos full] at success
    cases success
  · rw [if_neg full] at success clean ⊢
    exact appends_put writes_nothing s fmt shaped success clean

lemma appends_endOfBlock :
    Appends (serializeEndOfBlock heap) Item.endOfBlock.encode := by
  apply Appends.congr
  case same =>
    intro s fmt
    unfold serializeEndOfBlock
    rw [fmt]
  apply appends_reserve heap
  · intro s
    decide
  · exact appends_put writes_nothing

lemma appends_endOfRecord :
    Appends (serializeEndOfRecord heap) Item.endOfRecord.encode := by
  apply appends_reserve heap
  · intro s
    split <;> decide
  · intro s fmt shaped success clean
    simp only [fmt] at clean ⊢
    exact (appends_put writes_nothing s fmt shaped success clean).withFlags _

/-- Every operation that has a TLV form appends exactly its item. -/
lemma apply_appends (op : Op) (item : Item) (form : Op.tlvItem op = some item)
    (keeps : Op.KeepsKey op) : Appends (op.apply heap) item.encode := by
  cases op with
  | item key value =>
    cases key with
    | uint32 key =>
      cases value <;> cases form
      · exact appends_uint32Uint32 heap key _
      · exact appends_uint32Uint64 heap key _
      · exact appends_uint32Int32 heap key _
      · exact appends_uint32Int64 heap key _
      · exact appends_uint32Float heap key _
      · exact appends_uint32Binary heap key _
    | binary key =>
      obtain ⟨plain, measured⟩ := keeps
      cases value <;> cases form
      · exact appends_binaryUint32 heap key plain _
      · exact appends_binaryUint64 heap key plain _ measured
      · exact appends_binaryInt32 heap key plain _
      · exact appends_binaryInt64 heap key plain _ measured
      · exact appends_binaryFloat heap key plain _
      · exact appends_binaryBinary heap key plain _
  | stringInt32 key value =>
    cases form
    apply Appends.congr (appends_binaryInt32 heap (.ofString key) keeps value)
    intro s fmt
    exact if_neg (by rw [fmt]; decide)
  | stringStringLen key value =>
    cases form
    apply Appends.congr (appends_binaryBinary heap (.ofString key) keeps value)
    intro s fmt
    exact if_neg (by rw [fmt]; decide)
  | stringRaw key value =>
    cases form
    exact appends_binaryRaw heap (.ofString key) value false
  | stringUint32Format key value printed =>
    cases form
    apply Appends.congr (appends_binaryBinary heap (.ofString key) keeps _)
    intro s fmt
    have notJson : ¬s.fmt = .json := by rw [fmt]; decide
    have notCsv : ¬s.fmt = .csv := by rw [fmt]; decide
    exact (if_neg notJson).trans (if_neg notCsv)
  | startOfList key =>
    cases form
    exact appends_startOfListBinary heap key
  | endOfList =>
    cases form
    exact appends_endOfList
  | startOfBlock key =>
    cases form
    exact appends_startOfBlockBinary heap key
  | startOfBlockUint32 key =>
    cases form
    exact appends_startOfBlockBinary heap (.ofUint32 key)
  | endOfBlock =>
    cases form
    exact appends_endOfBlock heap
  | endOfRecord =>
    cases form
    exact appends_endOfRecord heap
  | rawRecord record => cases form

end Ndpi.Refinement
