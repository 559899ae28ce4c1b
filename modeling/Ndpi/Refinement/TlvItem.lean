import Ndpi.Source.Serialization.Markers

/-!
# The TLV item format

What a TLV buffer is a sequence of: one type byte with the key's and the value's
type, the key field and the value field. An item is in canonical form: integers
stand in the narrowest type the interface would choose for them, so a wide type
carries the proof that the value needs it.
-/
namespace Ndpi.Refinement
open Lib Source.Serialization

inductive ItemKey where
  | uint32 (key : UInt32)
  | string (key : Blob)
  deriving DecidableEq

inductive ItemValue where
  | uint32 (value : UInt32)
  | uint64 (value : UInt64) (large : 4294967296 ≤ value.toNat)
  | int32 (value : Int32)
  | int64 (value : Int64) (wide : fitsWord value = false)
  | float (bits : UInt32)
  | string (value : Blob)
  deriving DecidableEq

inductive Item where
  | field (key : ItemKey) (value : ItemValue)
  | startOfBlock (key : Blob)
  | endOfBlock
  | startOfList (key : Blob)
  | endOfList
  | endOfRecord
  deriving DecidableEq

def stringField (bytes : Bytes) : Bytes := beBytes 2 bytes.length ++ bytes

def ItemKey.field : ItemKey → ItemType × Bytes
  | .uint32 key => uint32Field key
  | .string key => (.string, stringField key.bytes)

def ItemValue.field : ItemValue → ItemType × Bytes
  | .uint32 value => uint32Field value
  | .uint64 value _ => (.uint64, beBytes 8 value.toNat)
  | .int32 value => int32Field value
  | .int64 value _ => (.int64, beBytes 8 value.toUInt64.toNat)
  | .float bits => (.float, (beBytes 4 bits.toNat).reverse)
  | .string value => (.string, stringField value.bytes)

/-- The key field; markers have none. -/
def Item.key : Item → ItemType × Bytes
  | .field key _ => key.field
  | _ => (.unknown, [])

/-- The value field; the name of a block or list stands in it. -/
def Item.value : Item → ItemType × Bytes
  | .field _ value => value.field
  | .startOfBlock key => (.startOfBlock, stringField key.bytes)
  | .endOfBlock => (.endOfBlock, [])
  | .startOfList key => (.startOfList, stringField key.bytes)
  | .endOfList => (.endOfList, [])
  | .endOfRecord => (.endOfRecord, [])

def Item.encode (item : Item) : Bytes :=
  typeByte item.key.1 item.value.1 :: (item.key.2 ++ item.value.2)

def KeyArg.blob (key : KeyArg) : Blob :=
  ⟨key.bytes, Nat.lt_of_le_of_lt (List.length_take_le _ _) key.short⟩

def ItemValue.ofUint64 (value : UInt64) : ItemValue :=
  if large : 4294967296 ≤ value.toNat then .uint64 value large else .uint32 value.toUInt32

def ItemValue.ofInt64 (value : Int64) : ItemValue :=
  if wide : fitsWord value = false then .int64 value wide else .int32 value.toInt32

/-- The stored form of a value, for the types TLV has. -/
def Scalar.tlvValue : Scalar → Option ItemValue
  | .uint32 value => some (.uint32 value)
  | .uint64 value => some (.ofUint64 value)
  | .int32 value => some (.int32 value)
  | .int64 value => some (.ofInt64 value)
  | .float value => some (.float value.bits)
  | .double _ => none
  | .binary value => some (.string value)
  | .boolean _ => none

/-- The item an operation appends, if it appends one. -/
def Op.tlvItem : Op → Option Item
  | .item (.uint32 key) value => (Scalar.tlvValue value).map (.field (.uint32 key))
  | .item (.binary key) value => (Scalar.tlvValue value).map (.field (.string (KeyArg.blob key)))
  | .stringInt32 key value => some (.field (.string (KeyArg.blob (.ofString key))) (.int32 value))
  | .stringStringLen key value =>
    some (.field (.string (KeyArg.blob (.ofString key))) (.string value))
  | .stringRaw key value => some (.field (.string (KeyArg.blob (.ofString key))) (.string value))
  | .stringUint32Format key _ printed =>
    some (.field (.string (KeyArg.blob (.ofString key))) (.string (.ofString (printed.take 15))))
  | .startOfList key => some (.startOfList (KeyArg.blob key))
  | .endOfList => some .endOfList
  | .startOfBlock key => some (.startOfBlock (KeyArg.blob key))
  | .startOfBlockUint32 key => some (.startOfBlock (KeyArg.blob (.ofUint32 key)))
  | .endOfBlock => some .endOfBlock
  | .endOfRecord => some .endOfRecord
  | .rawRecord _ => none

/-- The value is passed on to a narrower function, which measures a string key
again. -/
def Scalar.Narrow : Scalar → Prop
  | .uint64 value => value.toNat < 4294967296
  | .int64 value => fitsWord value = true
  | _ => False

/-- The operation stores its key as given: the key is not a number, and is not
measured again or ends where it is said to end. -/
def Op.KeepsKey : Op → Prop
  | .item (.binary key) value =>
    isNumber key.bytes = false ∧ (Scalar.Narrow value → strlen key.memory = key.klen)
  | .stringInt32 key _ => isNumber (KeyArg.ofString key).bytes = false
  | .stringStringLen key _ => isNumber (KeyArg.ofString key).bytes = false
  | .stringUint32Format key _ _ => isNumber (KeyArg.ofString key).bytes = false
  | _ => True

lemma keyArg_ofString_memory (measured : strlen key.memory = key.klen) :
    KeyArg.ofString key.memory = key := by
  have length : wrap16 (strlen key.memory) = key.klen := by
    rw [measured]
    exact wrap16_of_lt key.short
  cases key
  simp only [KeyArg.ofString, KeyArg.mk.injEq]
  exact ⟨trivial, length⟩

lemma keyArg_bytes_length (key : KeyArg) : key.bytes.length = key.klen := by
  rw [KeyArg.bytes, List.length_take]
  exact min_eq_left key.inside

end Ndpi.Refinement
