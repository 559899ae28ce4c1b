import Ndpi.Source.Serialization.Clone

/-!
# The read loop

`tests/unit/unit.c:163-226`: the loop a program reads a TLV buffer with. It asks
for the item type, fetches key and value with the functions for the types
reported, and moves on until the type is unknown.
-/
namespace Ndpi.Source.Serialization
open Lib

inductive ReadKey where
  | uint32 (key : UInt32)
  | string (key : Bytes)
  deriving DecidableEq, Repr

/-- A value as the program sees it: the width it was stored in is not part of
it. -/
inductive ReadValue where
  | unsigned (value : Nat)
  | signed (value : Int)
  | float (bits : UInt32)
  | string (value : Bytes)
  deriving DecidableEq, Repr

inductive Element where
  | field (key : ReadKey) (value : ReadValue)
  | startOfBlock (name : Bytes)
  | endOfBlock
  | startOfList (name : Bytes)
  | endOfList
  | endOfRecord
  deriving DecidableEq, Repr

/-- The result of an accessor, if it returned 0. -/
def returned {α : Type} (result : Int × α) : Option α := if result.1 = 0 then some result.2 else none

def NdpiString.content (string : NdpiString) (d : Serializer) : Bytes :=
  (string.memory d).take string.strLen.toNat

def readKey (d : Serializer) (kt : ItemType) : Option ReadKey :=
  match kt with
  | .uint32 => (returned (deserializeKeyUint32 d).val).join.map .uint32
  | .string => (returned (deserializeKeyString d).val).map fun string => .string (string.content d)
  | _ => none

def readValue (d : Serializer) (et : ItemType) : Option ReadValue :=
  match et with
  | .uint32 => (returned (deserializeValueUint32 d).val).map fun value => .unsigned value.toNat
  | .uint64 =>
    (returned (deserializeValueUint64 d).val).join.map fun value => .unsigned value.toNat
  | .int32 => (returned (deserializeValueInt32 d).val).map fun value => .signed value.toInt
  | .int64 => (returned (deserializeValueInt64 d).val).map fun value => .signed value.toInt
  | .float => (returned (deserializeValueFloat d).val).map .float
  | .string =>
    (returned (deserializeValueString d).val).map fun string => .string (string.content d)
  | _ => none

/-- The name of a block or list. -/
def readName (d : Serializer) : Option Bytes :=
  (returned (deserializeKeyString d).val).map fun string => string.content d

def readElement (d : Serializer) : Option Element :=
  let (kt, et) := (deserializeGetItemType d).val
  match et with
  | .endOfRecord => some .endOfRecord
  | .startOfBlock => (readName d).map .startOfBlock
  | .endOfBlock => some .endOfBlock
  | .startOfList => (readName d).map .startOfList
  | .endOfList => some .endOfList
  | _ => (readKey d kt).bind fun key => (readValue d et).map (.field key)

/-- The loop within a number of rounds: what it read and where it stopped. A
function that reports an error makes it give up. -/
def readLoop : Nat → Serializer → Option (List Element × Serializer)
  | 0, _ => none
  | rounds + 1, d =>
    if (deserializeGetItemType d).val.2 = .unknown then some ([], d)
    else
      match readElement d with
      | none => none
      | some element =>
        let next := (deserializeNext d).val
        if next.rc = 0 then
          (readLoop rounds next.ser).map fun result => (element :: result.1, result.2)
        else none

end Ndpi.Source.Serialization
