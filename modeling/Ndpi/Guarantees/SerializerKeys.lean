import Ndpi.Guarantees.TlvRoundTrip

/-!
# What follows a key in memory

A key is given by its length, but a key of digits is converted with `atoi`, and a value that
is handed on to a string function has its key measured with `strlen`. Apart from these the
bytes behind the key play no part.
-/
namespace Ndpi.Guarantees.SerializerKeys
open Lib Source.Serialization Refinement

/-- The key is measured again with `strlen`. -/
def Measures (fmt : SerializationFormat) (key : KeyArg) (value : Scalar) : Prop :=
  isNumber key.bytes = false ∧
    match value with
    | .boolean _ => fmt = .csv
    | value => Scalar.Narrow value ∧ fmt ≠ .json ∧ fmt ≠ .csv

/-- The key is converted with `atoi`. -/
def Converts (fmt : SerializationFormat) (key : KeyArg) (value : Scalar) : Prop :=
  match value with
  | .double _ => False
  | .uint32 _ => fmt ≠ .csv ∧ isNumber key.bytes
  | .boolean _ => (fmt = .json ∨ fmt = .csv) ∧ isNumber key.bytes
  | value => isNumber key.bytes ∨
      (Measures fmt key value ∧ isNumber (KeyArg.ofString key.memory).bytes)

variable {key other : KeyArg} {s : Serializer}

lemma klen_eq (key : KeyArg) : key.klen = key.bytes.length :=
  (List.length_take_of_le key.inside).symm

lemma stringKey_eq (bytes : key.bytes = other.bytes) : stringKey key = stringKey other := by
  rw [stringKey, stringKey, bytes]

lemma tlvStringItem_eq (bytes : key.bytes = other.bytes) :
    tlvStringItem key = tlvStringItem other := by
  funext et value s
  rw [tlvStringItem, tlvStringItem, bytes]

/-- Only the branch of the format counts. -/
lemma serializeItem_congr {json csv tlv tlv' csv' : Serializer → Outcome}
    (fields : s.fmt = .csv → ∀ t, csv t = csv' t)
    (types : s.fmt ≠ .json → s.fmt ≠ .csv → ∀ t, t.fmt = s.fmt → tlv t = tlv' t) :
    serializeItem heap needed json csv tlv s = serializeItem heap needed json csv' tlv' s := by
  have kept := reserve_fmt s heap needed
  unfold serializeItem Outcome.andThen
  split
  · grind
  · rfl

lemma alike_int32 (bytes : key.bytes = other.bytes)
    (number : isNumber other.bytes → atoi key.memory = atoi other.memory) :
    serializeBinaryInt32 heap key = serializeBinaryInt32 heap other := by
  funext value s
  simp only [serializeBinaryInt32, stringKey_eq bytes, tlvStringItem_eq bytes, klen_eq, bytes]
  grind

lemma alike_uint32 (bytes : key.bytes = other.bytes)
    (number : s.fmt ≠ .csv → isNumber other.bytes → atoi key.memory = atoi other.memory) :
    serializeBinaryUint32 heap key value s = serializeBinaryUint32 heap other value s := by
  simp only [serializeBinaryUint32, stringKey_eq bytes, tlvStringItem_eq bytes, klen_eq, bytes]
  grind

/-- A key of one byte in front of two others. -/
def keyOf (first second third : UInt8) : KeyArg :=
  ⟨[first, second, third], 1, Nat.le_of_ble_eq_true rfl, Nat.le_of_ble_eq_true rfl⟩

end Ndpi.Guarantees.SerializerKeys
