import Ndpi.Guarantees.TlvRoundTrip
import Ndpi.Refinement.JsonRun

/-!
# JSON by way of TLV

Cloning a TLV buffer into a JSON serializer writes what the operations would have
written there themselves: the call that replays an item has the JSON form of the
operation that stored it.
-/
namespace Ndpi.Guarantees
open Lib Source.Serialization Refinement List Option

/-- An integer or a string; a 64-bit integer that TLV would turn into a negative
32-bit one is left out. -/
def PlainValue : Scalar → Prop
  | .float _ | .double _ | .boolean _ => False
  | .int64 value => ¬(2147483648 ≤ value.toInt ∧ value.toInt < 4294967296)
  | _ => True

def PlainOp : Op → Prop
  | .item _ value => PlainValue value
  | .stringRaw _ _ | .stringUint32Format _ _ _ | .rawRecord _ => False
  | _ => True

lemma toUInt32_decimal {value : UInt64} (small : ¬4294967296 ≤ value.toNat) :
    value.toUInt32.toNat = value.toNat := by
  rw [UInt64.toNat_toUInt32]
  exact Nat.mod_eq_of_lt (Nat.lt_of_not_le small)

lemma toInt32_decimal (fits : ¬fitsWord value = false)
    (plain : ¬(2147483648 ≤ value.toInt ∧ value.toInt < 4294967296)) :
    value.toInt32.toInt = value.toInt := by
  have word : value.toInt % 4294967296 = value.toInt := by
    simpa [fitsWord] using fits
  rw [Int64.toInt_toInt32]
  apply Int.bmod_eq_of_le <;> omega

variable {value : Scalar}

/-- A stored value is replayed as one with the same JSON text. -/
lemma scalar_jsonValue {printed : UInt32 → Bytes}
    (form : Scalar.tlvValue value = some stored) (plain : PlainValue value) :
    Scalar.jsonValue (stored.scalar printed) = Scalar.jsonValue value := by
  cases value with
  | uint64 value =>
    cases form
    unfold ItemValue.ofUint64
    split
    · rfl
    · next small => simp [ItemValue.scalar, Scalar.jsonValue, toUInt32_decimal small]
  | int64 value =>
    cases form
    unfold ItemValue.ofInt64
    split
    · rfl
    · next fits => simp [ItemValue.scalar, Scalar.jsonValue, toInt32_decimal fits plain]
  | float value => exact plain.elim
  | double printed => cases form
  | boolean value => cases form
  | _ =>
    cases form
    rfl

lemma itemForm_stored (form : Scalar.tlvValue value = some stored) :
    itemForm key value = .item (Key.jsonKey key) (Scalar.jsonValue value) := by
  cases value with
  | double printed => cases form
  | _ => cases key <;> rfl

lemma name_jsonKey (plain : isNumber key.bytes = false) :
    Key.jsonKey (.binary key) = .name key.bytes := by
  rw [Key.jsonKey, if_neg (by rw [plain]; decide)]

variable {printed : UInt32 → Bytes} {replay : Op}

/-- A call that replays a keyed item has the form of any operation that stores
the item under the same key. -/
lemma replays_item (form : Op.tlvItem (.item key value) = some item)
    (plain : PlainValue value) (plainKey : item.PlainKey) (replays : Replays printed item replay) :
    Op.jsonForm replay = some (itemForm key value) := by
  cases key with
  | uint32 key =>
    obtain ⟨stored, valueForm, rfl⟩ := map_eq_some_iff.mp form
    cases replays with
    | uint32Key _ _ =>
      rw [Op.jsonForm, itemForm_stored valueForm,
        itemForm_stored (ItemValue.tlvValue_scalar printed stored),
        scalar_jsonValue valueForm plain]
  | binary key =>
    obtain ⟨stored, valueForm, same⟩ := map_eq_some_iff.mp form
    cases replays with
    | stringKey other value =>
      obtain ⟨bytes, rfl⟩ : key.bytes = other.bytes ∧ stored = value := by
        simpa [KeyArg.blob] using same
      have plainOther : isNumber other.bytes = false := plainKey
      rw [Op.jsonForm, itemForm_stored valueForm,
        itemForm_stored (ItemValue.tlvValue_scalar printed stored),
        scalar_jsonValue valueForm plain, name_jsonKey plainOther,
        name_jsonKey (bytes ▸ plainOther), bytes]
    | _ => cases same

lemma replays_startOfList (replays : Replays printed (.startOfList name) replay) :
    Op.jsonForm replay = some (.startOfList name.bytes) := by
  cases replays with
  | startOfList key => rfl

lemma replays_startOfBlock (replays : Replays printed (.startOfBlock name) replay) :
    Op.jsonForm replay = some (.startOfBlock name.bytes) := by
  cases replays with
  | startOfBlock key => rfl

lemma replays_jsonForm {replay : Op} (form : Op.tlvItem op = some item)
    (plain : PlainOp op) (plainKey : item.PlainKey) (replays : Replays printed item replay) :
    ∃ json, Op.jsonForm op = some json ∧ Op.jsonForm replay = some json := by
  cases op with
  | item key value => exact ⟨_, rfl, replays_item form plain plainKey replays⟩
  | stringInt32 key value =>
    have same : Op.tlvItem (.item (.binary (.ofString key)) (.int32 value)) = some item := form
    exact ⟨_, rfl, replays_item same trivial plainKey replays⟩
  | stringStringLen key value =>
    have same : Op.tlvItem (.item (.binary (.ofString key)) (.binary value)) = some item := form
    exact ⟨_, rfl, replays_item same trivial plainKey replays⟩
  | startOfList key =>
    cases form
    exact ⟨_, rfl, replays_startOfList replays⟩
  | startOfBlock key =>
    cases form
    exact ⟨_, rfl, replays_startOfBlock replays⟩
  | startOfBlockUint32 key =>
    cases form
    refine ⟨_, rfl, (replays_startOfBlock replays).trans ?_⟩
    exact congrArg (fun name => some (JsonForm.startOfBlock name)) (ofUint32_bytes key)
  | endOfList =>
    cases form
    cases replays
    exact ⟨_, rfl, rfl⟩
  | endOfBlock =>
    cases form
    cases replays
    exact ⟨_, rfl, rfl⟩
  | endOfRecord =>
    cases form
    cases replays
    exact ⟨_, rfl, rfl⟩
  | _ => exact plain.elim

lemma replays_forms (stored : calls.map (fun call => Op.tlvItem call.op) = items.map some)
    (plain : ∀ call ∈ calls, PlainOp call.op) (plainKeys : ∀ item ∈ items, item.PlainKey)
    (replays : List.Forall₂ (fun item call => Replays printed item call.op) items replayed) :
    ∃ forms, Forms calls forms ∧ Forms replayed forms := by
  induction replays generalizing calls with
  | nil =>
    obtain rfl : calls = [] := by simpa using stored
    exact ⟨[], .nil, .nil⟩
  | @cons item replay items replayed first rest ih =>
    cases calls with
    | nil => cases stored
    | cons call calls =>
      simp only [map_cons, List.cons.injEq] at stored
      obtain ⟨form, here, there⟩ := replays_jsonForm stored.1 (plain call (by simp))
        (plainKeys item (by simp)) first
      obtain ⟨forms, shapes, shapes'⟩ := ih stored.2
        (fun other member => plain other (by simp [member]))
        (fun other member => plainKeys other (by simp [member]))
      exact ⟨form :: forms, .cons here shapes, .cons there shapes'⟩

/-- The forms depend on the operations alone, not on the allocator. -/
lemma forms_ops (same : calls'.map Call.op = calls.map Call.op) (shapes : Forms calls forms) :
    Forms calls' forms := by
  induction shapes generalizing calls' with
  | nil =>
    obtain rfl : calls' = [] := by simpa using same
    exact .nil
  | @cons call form calls forms shape rest ih =>
    cases calls' with
    | nil => cases same
    | cons call' calls' =>
      simp only [map_cons, List.cons.injEq] at same
      refine .cons ?_ (ih same.2)
      rw [same.1]
      exact shape

/-- Two fresh serializers of one size, or both of a usual size, start alike. -/
lemma init_alike (sizes : m = m' ∨ UsualSize multiline m ∧ UsualSize multiline m')
    (init : initSerializerLl heap (jsonFormat multiline) m = some s)
    (init' : initSerializerLl heap' (jsonFormat multiline) m' = some r) :
    r.text = s.text ∧ Alike multiline ⟨{}, s.text⟩ s r := by
  rcases sizes with rfl | ⟨usual, usual'⟩
  · obtain rfl : r = s := (init_eq init').2.trans (init_eq init).2.symm
    exact ⟨rfl, .inl rfl⟩
  · obtain ⟨text, narrow⟩ := init_usual usual init
    obtain ⟨text', narrow'⟩ := init_usual usual' init'
    have same := text'.trans text.symm
    exact ⟨same, .inr ⟨narrow, same ▸ narrow'⟩⟩

/-- Serializing to TLV and cloning into a fresh JSON serializer gives the text that
the same operations write to a fresh JSON serializer. -/
theorem json_clone_same_text (printed : UInt32 → Bytes) (heap heap' heap'' : Heap)
    (n m m' : UInt32) (multiline : Bool) (fresh s d target fresh' direct : Serializer)
    (calls calls' : List Call) (heaps : Nat → Heap)
    (init : initSerializerLl heap .tlv n = some fresh) (run : runCalls calls fresh = some s)
    (cloneable : ∀ call ∈ calls, Cloneable call.op) (plain : ∀ call ∈ calls, PlainOp call.op)
    (initTarget : initSerializerLl heap' (jsonFormat multiline) m = some target)
    (initDirect : initSerializerLl heap'' (jsonFormat multiline) m' = some fresh')
    (sizes : m = m' ∨ UsualSize multiline m ∧ UsualSize multiline m')
    (ops : calls'.map Call.op = calls.map Call.op) (runDirect : runCalls calls' fresh' = some direct)
    (fits : multiline = false → Op.endOfRecord ∈ calls.map Call.op →
      direct.status.used ≤ direct.buffer.size) :
    ∃ opened result, initDeserializer d s = ok opened ∧
      deserializeCloneAll printed (calls.length + 1) heaps opened target = some result ∧
      result.rc = 0 ∧
      (CloneResult.AllReturned result →
        (multiline = false → Op.endOfRecord ∈ calls.map Call.op →
          result.ser.status.used ≤ result.ser.buffer.size) →
        serializerGetBuffer result.ser = serializerGetBuffer direct) := by
  obtain ⟨-, items, forms, plainKeys, -, opened, result, replayed, opening, cloned, rc, replays,
    replay⟩ := clone_replays heaps init run cloneable
  refine ⟨opened, result, opening, cloned, rc, fun returned inside => ?_⟩
  obtain ⟨shapes, here, there⟩ := replays_forms forms plain plainKeys replays
  obtain ⟨same, alike⟩ := init_alike sizes initTarget initDirect
  obtain ⟨shows, -, -, brace, -⟩ := init_shows initTarget
  have shows' := (init_shows initDirect).1
  rw [same] at shows'
  obtain ⟨last, shown, shown', solid⟩ := runCalls_alike there (forms_ops ops here) shows shows'
    (init_covered initTarget) ⟨0x7B, brace, rfl⟩ alike (replay returned) runDirect
    fun mode ends => ⟨inside mode (here.endOfRecord ends), fits mode (here.endOfRecord ends)⟩
  rw [getBuffer_json shown solid, getBuffer_json shown' solid]

def sampleJsonFresh : Serializer := (initSerializerLl openHeap .json 32).getD sampleFresh

def sampleJson : Serializer := (runCalls sampleCalls sampleJsonFresh).getD sampleFresh

def sampleJsonClone : Option CloneResult :=
  deserializeCloneAll (fun _ => []) 6 (fun _ => openHeap)
    (initDeserializer sampleFresh sampleBuffer).ser sampleJsonFresh

theorem json_clone_same_text_sample :
    ∃ result, sampleJsonClone = some result ∧ result.rc = 0 ∧
      serializerGetBuffer result.ser = serializerGetBuffer sampleJson := by
  have plain : ∀ call ∈ sampleCalls, PlainOp call.op := by
    simp only [sampleCalls, forall_mem_cons]
    exact ⟨trivial, trivial, trivial, trivial, trivial, by simp⟩
  obtain ⟨opened, result, opening, cloned, rc, same⟩ := json_clone_same_text (fun _ => []) openHeap
    openHeap openHeap 96 32 32 false sampleFresh sampleBuffer sampleFresh sampleJsonFresh
    sampleJsonFresh sampleJson sampleCalls sampleCalls (fun _ => openHeap) (by decide +kernel)
    (by decide +kernel) sampleCalls_cloneable plain (by decide +kernel) (by decide +kernel)
    (.inl rfl) rfl (by decide +kernel) fun _ _ => by decide +kernel
  have here : sampleJsonClone = some result := by
    rw [sampleJsonClone, opening]
    exact cloned
  have checked : (sampleJsonClone.map fun result => decide ((∀ outcome ∈ result.ignored,
      outcome.rc = 0 ∧ Clean outcome.ser) ∧ result.ser.status.used ≤ result.ser.buffer.size)) =
      some true := by decide +kernel
  rw [here, map_some, Option.some.injEq, decide_eq_true_eq] at checked
  exact ⟨result, here, rc, same checked.1 fun _ _ => checked.2⟩

end Ndpi.Guarantees
