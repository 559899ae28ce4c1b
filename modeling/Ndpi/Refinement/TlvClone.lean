import Ndpi.Refinement.TlvSequence

/-!
# What cloning replays

For every item of the buffer `ndpi_deserialize_clone_all` makes one call, which
stores the same item again in a TLV serializer and writes the same text in a
JSON one.
-/
namespace Ndpi.Refinement
open Lib Source Source.Serialization List Option

variable (printed : UInt32 → Bytes)

def ItemValue.scalar : ItemValue → Scalar
  | .uint32 value => .uint32 value
  | .uint64 value _ => .uint64 value
  | .int32 value => .int32 value
  | .int64 value _ => .int64 value
  | .float bits => .float ⟨bits, printed bits⟩
  | .string value => .binary value

/-- `op` is a call that replays `item`. A string key comes with whatever follows
it in the buffer. -/
inductive Replays : Item → Op → Prop where
  | uint32Key (key : UInt32) (value : ItemValue) :
    Replays (.field (.uint32 key) value) (.item (.uint32 key) (value.scalar printed))
  | stringKey (key : KeyArg) (value : ItemValue) :
    Replays (.field (.string (KeyArg.blob key)) value)
      (.item (.binary key) (value.scalar printed))
  | startOfBlock (key : KeyArg) : Replays (.startOfBlock (KeyArg.blob key)) (.startOfBlock key)
  | endOfBlock : Replays .endOfBlock .endOfBlock
  | startOfList (key : KeyArg) : Replays (.startOfList (KeyArg.blob key)) (.startOfList key)
  | endOfList : Replays .endOfList .endOfList
  | endOfRecord : Replays .endOfRecord .endOfRecord

lemma ItemValue.tlvValue_scalar (value : ItemValue) :
    Scalar.tlvValue (value.scalar printed) = some value := by
  cases value with
  | uint64 value large =>
    simp [ItemValue.scalar, Scalar.tlvValue, ItemValue.ofUint64, dif_pos large]
  | int64 value wide => simp [ItemValue.scalar, Scalar.tlvValue, ItemValue.ofInt64, dif_pos wide]
  | _ => rfl

lemma ItemValue.scalar_not_narrow (value : ItemValue) :
    ¬Scalar.Narrow (value.scalar printed) := by
  cases value with
  | uint64 value large => exact not_lt.mpr large
  | int64 value wide =>
    intro fits
    have fits : fitsWord value = true := fits
    rw [wide] at fits
    cases fits
  | _ => exact id

/-- An item whose string key, if it has one, is not a number. -/
def Item.PlainKey : Item → Prop
  | .field (.string key) _ => isNumber key.bytes = false
  | _ => True

variable {printed}

lemma Replays.tlvItem (replays : Replays printed item op) : Op.tlvItem op = some item := by
  cases replays with
  | uint32Key key value => simp [Op.tlvItem, ItemValue.tlvValue_scalar]
  | stringKey key value => simp [Op.tlvItem, ItemValue.tlvValue_scalar]
  | _ => rfl

lemma Replays.keepsKey (replays : Replays printed item op) (plain : item.PlainKey) :
    Op.KeepsKey op := by
  cases replays with
  | stringKey key value =>
    exact ⟨plain, fun narrow => absurd narrow (ItemValue.scalar_not_narrow printed value)⟩
  | _ => trivial

section

variable (printed) {d : Serializer} {before after : Bytes}

lemma Reading.cloneValue (reading : Reading d before (.field key value) after) :
    cloneValue printed d value.field.1.widened = some (value.scalar printed) := by
  cases value with
  | uint32 value =>
    have accessed := reading.valueUint32 value rfl
    simp [ItemValue.field, uint32Field_widened, Serialization.cloneValue, accessed,
      ItemValue.scalar]
  | uint64 value large =>
    have accessed := reading.valueUint64 value rfl
    simp [ItemValue.field, ItemType.widened, Serialization.cloneValue, accessed, ItemValue.scalar]
  | int32 value =>
    have accessed := reading.valueInt32 value rfl
    simp [ItemValue.field, int32Field_widened, Serialization.cloneValue, accessed, ItemValue.scalar]
  | int64 value wide =>
    have accessed := reading.valueInt64 value rfl
    simp [ItemValue.field, ItemType.widened, Serialization.cloneValue, accessed, ItemValue.scalar]
  | float bits =>
    have accessed := reading.valueFloat bits rfl
    simp [ItemValue.field, ItemType.widened, Serialization.cloneValue, accessed, ItemValue.scalar]
  | string value =>
    have points := (reading.valueString value rfl).2
    simp [ItemValue.field, ItemType.widened, Serialization.cloneValue, points.value,
      ItemValue.scalar]

lemma Reading.cloneCall_field (reading : Reading d before (.field key value) after) (call : Key)
    (cloned : cloneKey d key.field.1.widenedKey = some call) :
    cloneCall printed d = .ok (.item call (value.scalar printed)) := by
  have cloneValue := reading.cloneValue printed
  unfold cloneCall
  simp only [reading.itemType, Item.key, Item.value, cloned]
  rcases widened_field value with type | type | type | type | type | type <;>
  · rw [type] at cloneValue ⊢
    simp [cloneValue]

lemma Reading.cloneCall (reading : Reading d before item after) :
    ∃ op, cloneCall printed d = .ok op ∧ Replays printed item op := by
  cases item with
  | field key value =>
    cases key with
    | uint32 key =>
      have accessed := reading.keyUint32 key rfl
      refine ⟨_, reading.cloneCall_field printed (.uint32 key) ?_, .uint32Key key value⟩
      simp [ItemKey.field, uint32Field_widenedKey, cloneKey, accessed]
    | string key =>
      have points := (reading.keyString key rfl).2
      refine ⟨_, reading.cloneCall_field printed (.binary _) rfl, ?_⟩
      have replays : Replays printed _ _ :=
        .stringKey (.ofNdpiString (deserializeKeyString d).val.2 d) value
      rw [points.key] at replays
      exact replays
  | startOfBlock name =>
    have points := (reading.markerName name rfl rfl).2
    have replays : Replays printed _ _ :=
      .startOfBlock (.ofNdpiString (deserializeKeyString d).val.2 d)
    rw [points.key] at replays
    refine ⟨_, ?_, replays⟩
    simp [Serialization.cloneCall, reading.itemType, Item.value, ItemType.widened]
  | startOfList name =>
    have points := (reading.markerName name rfl rfl).2
    have replays : Replays printed _ _ :=
      .startOfList (.ofNdpiString (deserializeKeyString d).val.2 d)
    rw [points.key] at replays
    refine ⟨_, ?_, replays⟩
    simp [Serialization.cloneCall, reading.itemType, Item.value, ItemType.widened]
  | endOfBlock =>
    refine ⟨_, ?_, .endOfBlock⟩
    simp [Serialization.cloneCall, reading.itemType, Item.value, ItemType.widened]
  | endOfList =>
    refine ⟨_, ?_, .endOfList⟩
    simp [Serialization.cloneCall, reading.itemType, Item.value, ItemType.widened]
  | endOfRecord =>
    refine ⟨_, ?_, .endOfRecord⟩
    simp [Serialization.cloneCall, reading.itemType, Item.value, ItemType.widened]

end

/-- Every call the cloning made returned 0 and stored inside its buffer. -/
def CloneResult.AllReturned (result : CloneResult) : Prop :=
  ∀ outcome ∈ result.ignored, outcome.rc = 0 ∧ Clean outcome.ser

/-- Cloning ends after one round per item, and is the run of the replaying calls
if they all return 0. -/
lemma cloneAll_items (items : List Item) (heaps : Nat → Heap) (d s : Serializer) (before : Bytes)
    (unread : Unread d before items) (short : ∀ item ∈ items, item.encode.length < 65536) :
    ∃ result calls,
      deserializeCloneAll printed (items.length + 1) heaps d s = some result ∧ result.rc = 0 ∧
      List.Forall₂ (fun item call => Replays printed item call.op) items calls ∧
      (CloneResult.AllReturned result → runCalls calls s = some result.ser) := by
  induction items generalizing heaps d s before with
  | nil =>
    refine ⟨⟨0, s, []⟩, [], ?_, rfl, .nil, fun _ => rfl⟩
    simp [deserializeCloneAll, unread.end_itemType]
  | cons item rest ih =>
    obtain ⟨after, reading⟩ := unread.reading (short item (by simp))
    obtain ⟨op, cloned, replays⟩ := reading.cloneCall printed
    obtain ⟨result, calls, loop, rc, all, run⟩ := ih (fun i => heaps (i + 1)) _
      (op.apply (heaps 0) s).ser _ unread.advance (fun other member => short other (by simp [member]))
    refine ⟨⟨result.rc, result.ser, op.apply (heaps 0) s :: result.ignored⟩, ⟨heaps 0, op⟩ :: calls,
      ?_, rc, .cons replays all, ?_⟩
    · rw [length_cons, deserializeCloneAll, if_neg reading.known]
      simp [cloned, reading.next, ok, loop]
    · intro returned
      have first := returned _ (mem_cons_self)
      rw [runCalls]
      simp only [first.1, first.2, and_self, if_true]
      exact run fun outcome member => returned outcome (mem_cons_of_mem _ member)

end Ndpi.Refinement
