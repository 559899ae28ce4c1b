import Ndpi.Refinement.TlvClone

/-!
# What a TLV buffer gives back

Reading a TLV buffer returns the operations that produced it, and cloning it
into another TLV serializer reproduces it byte for byte. Both follow from the
item sequence the operations append.
-/
namespace Ndpi.Guarantees
open Lib Source.Serialization Refinement List

/-- A key as the reader should see it: an integer, or a string that is not empty
and not made of digits only. -/
def keyRead : Key → Option ReadKey
  | .uint32 key => some (.uint32 key)
  | .binary key =>
    if isNumber key.bytes = false ∧ strlen key.memory = key.klen then some (.string key.bytes)
    else none

/-- An operation as the reader should see it, for operations with integer and
string values. -/
def opElement : Op → Option Element
  | .item key (.uint32 value) => (keyRead key).map (.field · (.unsigned value.toNat))
  | .item key (.uint64 value) => (keyRead key).map (.field · (.unsigned value.toNat))
  | .item key (.int32 value) => (keyRead key).map (.field · (.signed value.toInt))
  | .item key (.binary value) => (keyRead key).map (.field · (.string value.bytes))
  | .stringInt32 key value =>
    (keyRead (.binary (.ofString key))).map (.field · (.signed value.toInt))
  | .stringStringLen key value =>
    (keyRead (.binary (.ofString key))).map (.field · (.string value.bytes))
  | .startOfList key => some (.startOfList key.bytes)
  | .endOfList => some .endOfList
  | .startOfBlock key => some (.startOfBlock key.bytes)
  | .startOfBlockUint32 key => some (.startOfBlock (decimal key.toNat))
  | .endOfBlock => some .endOfBlock
  | .endOfRecord => some .endOfRecord
  | _ => none

/-- The length of the type byte, key and value an operation stores. -/
def encodedLength (op : Op) : Nat := ((Op.tlvItem op).map fun item => item.encode.length).getD 0

lemma keyRead_binary {read : ReadKey} (form : keyRead (.binary key) = some read) :
    read = .string key.bytes ∧ isNumber key.bytes = false ∧ strlen key.memory = key.klen := by
  simp only [keyRead] at form
  split at form
  · next plain =>
    cases form
    exact ⟨rfl, plain⟩
  · cases form

lemma ofUint64_read :
    (ItemValue.ofUint64 value).read = .unsigned value.toNat := by
  unfold ItemValue.ofUint64
  split
  · rfl
  · next small =>
    have same : value.toUInt32.toNat = value.toNat := by
      rw [UInt64.toNat_toUInt32]
      exact Nat.mod_eq_of_lt (Nat.lt_of_not_le small)
    rw [ItemValue.read, same]

/-- A keyed operation stores an item that reads as its key and value. -/
lemma item_stored (value : Scalar) (form : Scalar.tlvValue value = some stored)
    (reads : stored.read = shown) (meaning : (keyRead key).map (.field · shown) = some element) :
    ∃ item, Op.tlvItem (.item key value) = some item ∧ item.element = element ∧
      Op.KeepsKey (.item key value) := by
  obtain ⟨read, keyForm, rfl⟩ := Option.map_eq_some_iff.mp meaning
  cases key with
  | uint32 key =>
    cases keyForm
    refine ⟨.field (.uint32 key) stored, ?_, ?_, trivial⟩
    · rw [Op.tlvItem, form, Option.map_some]
    · rw [Item.element, reads, ItemKey.read]
  | binary key =>
    obtain ⟨rfl, plain, measured⟩ := keyRead_binary keyForm
    refine ⟨.field (.string (KeyArg.blob key)) stored, ?_, ?_, plain, fun _ => measured⟩
    · rw [Op.tlvItem, form, Option.map_some]
    · rw [Item.element, reads, ItemKey.read, KeyArg.blob]

lemma opElement_stored (meaning : opElement op = some element) :
    ∃ item, Op.tlvItem op = some item ∧ item.element = element ∧ Op.KeepsKey op := by
  cases op with
  | item key value =>
    cases value with
    | uint32 value => exact item_stored _ rfl rfl meaning
    | uint64 value => exact item_stored _ rfl ofUint64_read meaning
    | int32 value => exact item_stored _ rfl rfl meaning
    | binary value => exact item_stored _ rfl rfl meaning
    | _ => cases meaning
  | stringInt32 key value =>
    obtain ⟨item, form, shown, keeps⟩ := item_stored (.int32 value) rfl rfl meaning
    exact ⟨item, form, shown, keeps.1⟩
  | stringStringLen key value =>
    obtain ⟨item, form, shown, keeps⟩ := item_stored (.binary value) rfl rfl meaning
    exact ⟨item, form, shown, keeps.1⟩
  | startOfList key =>
    cases meaning
    exact ⟨_, rfl, rfl, trivial⟩
  | endOfList =>
    cases meaning
    exact ⟨_, rfl, rfl, trivial⟩
  | startOfBlock key =>
    cases meaning
    exact ⟨_, rfl, rfl, trivial⟩
  | startOfBlockUint32 key =>
    cases meaning
    refine ⟨_, rfl, ?_, trivial⟩
    exact congrArg Element.startOfBlock (take_length)
  | endOfBlock =>
    cases meaning
    exact ⟨_, rfl, rfl, trivial⟩
  | endOfRecord =>
    cases meaning
    exact ⟨_, rfl, rfl, trivial⟩
  | _ => cases meaning

/-- The items behind a sequence of operations with a meaning. -/
lemma calls_stored (calls : List Call) (elements : List Element)
    (meaning : calls.map (fun call => opElement call.op) = elements.map some)
    (short : ∀ call ∈ calls, encodedLength call.op < 65536) :
    ∃ items : List Item, calls.map (fun call => Op.tlvItem call.op) = items.map some ∧
      items.map Item.element = elements ∧ (∀ item ∈ items, item.encode.length < 65536) ∧
      ∀ call ∈ calls, Op.KeepsKey call.op := by
  induction calls generalizing elements with
  | nil =>
    cases elements with
    | nil => exact ⟨[], rfl, rfl, by simp, by simp⟩
    | cons element rest => cases meaning
  | cons call rest ih =>
    cases elements with
    | nil => cases meaning
    | cons element elements =>
      simp only [map_cons, List.cons.injEq] at meaning
      obtain ⟨item, form, shown, keeps⟩ := opElement_stored meaning.1
      obtain ⟨items, forms, elementsEq, shorts, keepsRest⟩ :=
        ih elements meaning.2 (fun other member => short other (by simp [member]))
      have length := short call (by simp)
      rw [encodedLength, form, Option.map_some, Option.getD_some] at length
      refine ⟨item :: items, ?_, ?_, ?_, ?_⟩
      · rw [map_cons, map_cons, form, forms]
      · rw [map_cons, shown, elementsEq]
      · exact forall_mem_cons.mpr ⟨length, shorts⟩
      · exact forall_mem_cons.mpr ⟨keeps, keepsRest⟩

/-- Reading the buffer of a TLV run returns its operations in order, and then
reports the end of the buffer. -/
theorem tlv_round_trip (heap : Heap) (n : UInt32) (fresh s d : Serializer) (calls : List Call)
    (elements : List Element) (init : initSerializerLl heap .tlv n = some fresh)
    (run : runCalls calls fresh = some s)
    (meaning : calls.map (fun call => opElement call.op) = elements.map some)
    (short : ∀ call ∈ calls, encodedLength call.op < 65536) :
    ∃ opened ended, initDeserializer d s = ok opened ∧
      readLoop (elements.length + 1) opened = some (elements, ended) ∧
      ended.status.used = ended.buffer.size ∧
      (deserializeGetItemType ended).val.2 = .unknown ∧ (deserializeNext ended).val.rc = -2 := by
  obtain ⟨items, forms, shown, shorts, keeps⟩ := calls_stored calls elements meaning short
  obtain ⟨sound, -, fmt, header⟩ := init_tlv init
  obtain ⟨-, sound', text⟩ := runCalls_appends calls items fresh s forms keeps fmt sound run
  rw [header] at text
  obtain ⟨opened, opening, unread⟩ := initDeserializer_unread d s items sound' text
  obtain ⟨ended, after, loop, atEnd⟩ := readLoop_items items opened [1, 1] unread shorts
  have count : items.length = elements.length := by rw [← shown, length_map]
  rw [shown, count] at loop
  refine ⟨opened, ended, opening, loop, atEnd.used_eq, ?_, atEnd.end_next⟩
  rw [atEnd.end_itemType]

/-- An allocator that grants every request. -/
def openHeap : Heap := ⟨fun _ => true, fun _ => 0⟩

/-- A key and a value of each width, a string key, a block and a record end. -/
def sampleCalls : List Call :=
  [⟨openHeap, .item (.uint32 300) (.uint64 70000)⟩, ⟨openHeap, .startOfBlock (.ofString [97])⟩,
    ⟨openHeap, .item (.binary (.ofString [107])) (.int32 (-5))⟩, ⟨openHeap, .endOfBlock⟩,
    ⟨openHeap, .endOfRecord⟩]

def sampleFresh : Serializer := (initSerializerLl openHeap .tlv 96).getD ⟨noStatus, noBuffer,
  noBuffer, .tlv, 0, false, false, false, noStatus⟩

def sampleElements : List Element :=
  [.field (.uint32 300) (.unsigned 70000), .startOfBlock [97],
    .field (.string [107]) (.signed (-5)), .endOfBlock, .endOfRecord]

def sampleBuffer : Serializer := (runCalls sampleCalls sampleFresh).getD sampleFresh

theorem tlv_round_trip_sample :
    ∃ opened ended, initDeserializer sampleFresh sampleBuffer = ok opened ∧
      readLoop (sampleElements.length + 1) opened = some (sampleElements, ended) ∧
      ended.status.used = ended.buffer.size ∧
      (deserializeGetItemType ended).val.2 = .unknown ∧ (deserializeNext ended).val.rc = -2 :=
  tlv_round_trip openHeap 96 sampleFresh sampleBuffer sampleFresh sampleCalls sampleElements
    (by decide +kernel) (by decide +kernel) (by decide +kernel) (by decide +kernel)

/-- An operation whose item survives cloning: its string key, if any, is not a
number and is stored as given, and the item is short enough for the reader. -/
def Cloneable (op : Op) : Prop :=
  ∃ item, Op.tlvItem op = some item ∧ item.PlainKey ∧ item.encode.length < 65536 ∧ Op.KeepsKey op

variable {calls : List Call}

lemma calls_cloneable (cloneable : ∀ call ∈ calls, Cloneable call.op) :
    ∃ items : List Item, calls.map (fun call => Op.tlvItem call.op) = items.map some ∧
      ∀ item ∈ items, item.PlainKey ∧ item.encode.length < 65536 := by
  induction calls with
  | nil => exact ⟨[], rfl, by simp⟩
  | cons call rest ih =>
    obtain ⟨item, form, plain, short, -⟩ := cloneable call (by simp)
    obtain ⟨items, forms, each⟩ := ih fun other member => cloneable other (by simp [member])
    refine ⟨item :: items, ?_, ?_⟩
    · rw [map_cons, map_cons, form, forms]
    · exact forall_mem_cons.mpr ⟨⟨plain, short⟩, each⟩

variable {printed : UInt32 → Bytes}

lemma replays_stored
    (replays : List.Forall₂ (fun item call => Replays printed item call.op) items calls)
    (plain : ∀ item ∈ items, item.PlainKey) :
    calls.map (fun call => Op.tlvItem call.op) = items.map some ∧
      ∀ call ∈ calls, Op.KeepsKey call.op := by
  induction replays with
  | nil => exact ⟨rfl, by simp⟩
  | @cons item call items calls first rest ih =>
    obtain ⟨forms, keeps⟩ := ih fun other member => plain other (by simp [member])
    refine ⟨?_, ?_⟩
    · rw [map_cons, map_cons, first.tlvItem, forms]
    · exact forall_mem_cons.mpr ⟨first.keepsKey (plain item (by simp)), keeps⟩

lemma getBuffer_tlv (fmt : s.fmt = .tlv) : serializerGetBuffer s = s.text := by
  unfold serializerGetBuffer Serializer.text
  simp only [fmt, reduceCtorEq, if_false]
  split
  · exact Memory.store_take _ _ (le_refl _)
  · rfl

/-- Cloning a TLV buffer into any serializer ends, and makes there, as long as they
return 0, the calls that replay the items of the buffer. -/
lemma clone_replays (heaps : Nat → Heap) (init : initSerializerLl heap .tlv n = some fresh)
    (run : runCalls calls fresh = some s) (cloneable : ∀ call ∈ calls, Cloneable call.op) :
    s.fmt = .tlv ∧ ∃ items : List Item,
      calls.map (fun call => Op.tlvItem call.op) = items.map some ∧
      (∀ item ∈ items, item.PlainKey) ∧ s.text = [1, 1] ++ items.flatMap Item.encode ∧
      ∃ opened result replayed, initDeserializer d s = ok opened ∧
        deserializeCloneAll printed (calls.length + 1) heaps opened target = some result ∧
        result.rc = 0 ∧
        List.Forall₂ (fun item call => Replays printed item call.op) items replayed ∧
        (CloneResult.AllReturned result → runCalls replayed target = some result.ser) := by
  obtain ⟨items, forms, each⟩ := calls_cloneable cloneable
  have keeps : ∀ call ∈ calls, Op.KeepsKey call.op := by
    intro call member
    obtain ⟨-, -, -, -, keeps⟩ := cloneable call member
    exact keeps
  have count : items.length = calls.length := by
    have lengths := congrArg List.length forms
    simpa using lengths.symm
  obtain ⟨sound, -, fmt, header⟩ := init_tlv init
  obtain ⟨fmtS, soundS, textS⟩ := runCalls_appends calls items fresh s forms keeps fmt sound run
  rw [header] at textS
  obtain ⟨opened, opening, unread⟩ := initDeserializer_unread d s items soundS textS
  obtain ⟨result, replayed, cloned, rc, replays, replay⟩ := cloneAll_items items heaps opened target
    [1, 1] unread fun item member => (each item member).2
  rw [count] at cloned
  exact ⟨fmtS, items, forms, fun item member => (each item member).1, textS, opened, result,
    replayed, opening, cloned, rc, replays, replay⟩

/-- Cloning a TLV buffer into a fresh TLV serializer ends, and produces the same
bytes if its calls return 0. -/
theorem tlv_clone_identical (printed : UInt32 → Bytes) (heap heap' : Heap) (n m : UInt32)
    (fresh s d target : Serializer) (calls : List Call) (heaps : Nat → Heap)
    (init : initSerializerLl heap .tlv n = some fresh) (run : runCalls calls fresh = some s)
    (cloneable : ∀ call ∈ calls, Cloneable call.op)
    (initTarget : initSerializerLl heap' .tlv m = some target) :
    ∃ opened result, initDeserializer d s = ok opened ∧
      deserializeCloneAll printed (calls.length + 1) heaps opened target = some result ∧
      result.rc = 0 ∧
      (CloneResult.AllReturned result →
        serializerGetBuffer result.ser = serializerGetBuffer s) := by
  obtain ⟨fmtS, items, -, plainKeys, textS, opened, result, replayed, opening, cloned, rc, replays,
    replay⟩ := clone_replays heaps init run cloneable
  obtain ⟨soundT, -, fmtT, headerT⟩ := init_tlv initTarget
  refine ⟨opened, result, opening, cloned, rc, fun returned => ?_⟩
  obtain ⟨formsR, keepsR⟩ := replays_stored replays plainKeys
  obtain ⟨fmtR, -, textR⟩ :=
    runCalls_appends replayed items target result.ser formsR keepsR fmtT soundT (replay returned)
  rw [getBuffer_tlv fmtR, getBuffer_tlv fmtS, textR, textS, headerT]

def sampleClone : Option CloneResult :=
  deserializeCloneAll (fun _ => []) 6 (fun _ => openHeap)
    (initDeserializer sampleFresh sampleBuffer).ser sampleFresh

lemma sampleCalls_cloneable : ∀ call ∈ sampleCalls, Cloneable call.op := by
  intro call member
  simp only [sampleCalls, mem_cons, not_mem_nil, or_false] at member
  rcases member with rfl | rfl | rfl | rfl | rfl
  · exact ⟨_, rfl, trivial, by decide +kernel, trivial⟩
  · exact ⟨_, rfl, trivial, by decide +kernel, trivial⟩
  · exact ⟨_, rfl, rfl, by decide +kernel, rfl, fun narrow => narrow.elim⟩
  · exact ⟨_, rfl, trivial, by decide +kernel, trivial⟩
  · exact ⟨_, rfl, trivial, by decide +kernel, trivial⟩

theorem tlv_clone_identical_sample :
    ∃ result, sampleClone = some result ∧ result.rc = 0 ∧
      serializerGetBuffer result.ser = serializerGetBuffer sampleBuffer := by
  obtain ⟨opened, result, opening, cloned, rc, same⟩ := tlv_clone_identical (fun _ => []) openHeap
    openHeap 96 96 sampleFresh sampleBuffer sampleFresh sampleFresh sampleCalls (fun _ => openHeap)
    (by decide +kernel) (by decide +kernel) sampleCalls_cloneable (by decide +kernel)
  have here : sampleClone = some result := by
    rw [sampleClone, opening]
    exact cloned
  have returned : CloneResult.AllReturned result := by
    have checked : (sampleClone.map fun result => result.ignored.all fun outcome =>
        outcome.rc = 0 ∧ Clean outcome.ser) = some true := by decide +kernel
    rw [here, Option.map_some, Option.some.injEq, List.all_eq_true] at checked
    intro outcome member
    exact of_decide_eq_true (checked outcome member)
  exact ⟨result, here, rc, same returned⟩

end Ndpi.Guarantees
