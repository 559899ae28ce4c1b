import Ndpi.Source.Serialization.Deserializer

/-!
# Cloning a buffer

`ndpi_serializer.c:3048-3138`: the loop of `ndpi_deserialize_clone_all`, which
replays every item of a TLV buffer as a call on another serializer. It ignores
what those calls return; the model keeps their outcomes beside the result.
-/
namespace Ndpi.Source.Serialization
open Lib

/-- The memory from a pointer into the buffer on. A string that reaches beyond
the buffer continues with zeros. -/
def NdpiString.memory (string : NdpiString) (d : Serializer) : Bytes :=
  let rest := match string.str with
    | none => []
    | some index => d.buffer.data.cells.drop index
  rest ++ List.replicate (string.strLen.toNat - rest.length) 0

lemma NdpiString.strLen_le_memory (string : NdpiString) (d : Serializer) :
    string.strLen.toNat ≤ (string.memory d).length := by
  simp only [NdpiString.memory, List.length_append, List.length_replicate]
  omega

/-- `ks.str, ks.str_len` passed on as a key. -/
def KeyArg.ofNdpiString (string : NdpiString) (d : Serializer) : KeyArg where
  memory := string.memory d
  klen := string.strLen.toNat
  inside := string.strLen_le_memory d
  short := string.strLen.toNat_lt

/-- `vs.str, vs.str_len` passed on as a value. -/
def Blob.ofNdpiString (string : NdpiString) (d : Serializer) : Blob where
  bytes := (string.memory d).take string.strLen.toNat
  short := Nat.lt_of_le_of_lt (List.length_take_le _ _) string.strLen.toNat_lt

/-- The key an item is replayed under; `none` is a key of another type. The
defaults are never taken: the key functions succeed on the types they are called
for. -/
def cloneKey (d : Serializer) (kt : ItemType) : Option Key :=
  match kt with
  | .uint32 => some (.uint32 ((deserializeKeyUint32 d).val.2.getD 0))
  | .string => some (.binary (.ofNdpiString (deserializeKeyString d).val.2 d))
  | _ => none

/-- The value an item is replayed with; `none` is a value of another type.
`printed` is `%.3f`. -/
def cloneValue (printed : UInt32 → Bytes) (d : Serializer) (et : ItemType) : Option Scalar :=
  match et with
  | .uint32 => some (.uint32 (deserializeValueUint32 d).val.2)
  | .uint64 => some (.uint64 ((deserializeValueUint64 d).val.2.getD 0))
  | .int32 => some (.int32 (deserializeValueInt32 d).val.2)
  | .int64 => some (.int64 (deserializeValueInt64 d).val.2)
  | .float =>
    let bits := (deserializeValueFloat d).val.2
    some (.float ⟨bits, printed bits⟩)
  | .string => some (.binary (.ofNdpiString (deserializeValueString d).val.2 d))
  | _ => none

/-- The call that replays the current item, or the value to return. -/
def cloneCall (printed : UInt32 → Bytes) (d : Serializer) : Except Int Op :=
  let (kt, et) := (deserializeGetItemType d).val
  match et with
  | .endOfRecord => .ok .endOfRecord
  | .startOfBlock => .ok (.startOfBlock (.ofNdpiString (deserializeKeyString d).val.2 d))
  | .endOfBlock => .ok .endOfBlock
  | .startOfList => .ok (.startOfList (.ofNdpiString (deserializeKeyString d).val.2 d))
  | .endOfList => .ok .endOfList
  | _ =>
    match cloneKey d kt with
    | none => .error (-1)
    | some key =>
      match cloneValue printed d et with
      | none => .error (-2)
      | some value => .ok (.item key value)

/-- What `ndpi_deserialize_clone_all` returns and leaves, and the outcomes of the
calls it made without looking at them. -/
structure CloneResult where
  rc : Int
  ser : Serializer
  ignored : List Outcome
  deriving DecidableEq, Repr

/-- `ndpi_deserialize_clone_all` within a number of rounds; `heaps` is the
allocator in each of them. -/
def deserializeCloneAll (printed : UInt32 → Bytes) :
    Nat → (Nat → Heap) → Serializer → Serializer → Option CloneResult
  | 0, _, _, _ => none
  | rounds + 1, heaps, d, s =>
    if (deserializeGetItemType d).val.2 = .unknown then some ⟨0, s, []⟩
    else
      match cloneCall printed d with
      | .error rc => some ⟨rc, s, []⟩
      | .ok op =>
        let called := op.apply (heaps 0) s
        (deserializeCloneAll printed rounds (fun i => heaps (i + 1)) (deserializeNext d).val.ser
          called.ser).map fun result => { result with ignored := called :: result.ignored }

end Ndpi.Source.Serialization
