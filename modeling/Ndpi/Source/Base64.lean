import Ndpi.Lib.Memory

/-!
# Base64

`ndpi_utils.c:988-1109`: the encoder, group by group of three bytes, and the decoder,
which skips bytes outside of the alphabet. Masks and shifts of bytes are remainders
and quotients. Allocations succeed.
-/
namespace Ndpi.Source.Base64
open Lib

/-- `base64_table`. -/
def base64Table : Bytes :=
  "ABCDEFGHIJKLMNOPQRSTUVWXYZabcdefghijklmnopqrstuvwxyz0123456789+/".toList.map
    fun c => UInt8.ofNat c.toNat

def base64Char (i : Nat) : UInt8 := base64Table[i]?.getD 0

/-- `char_array_4` made from `char_array_3`. -/
def sixBits (a b c : UInt8) : List Nat :=
  [a.toNat / 4, a.toNat % 4 * 16 + b.toNat / 16, b.toNat % 16 * 4 + c.toNat / 64, c.toNat % 64]

/-- `ndpi_base64_encode`. -/
def base64Encode : Bytes → Bytes
  | a :: b :: c :: rest => (sixBits a b c).map base64Char ++ base64Encode rest
  | [a, b] => ((sixBits a b 0).take 3).map base64Char ++ [0x3D]
  | [a] => ((sixBits a 0 0).take 2).map base64Char ++ [0x3D, 0x3D]
  | [] => []

/-- `dtable`; `none` stands for `0x80`. -/
def dtable (c : UInt8) : Option Nat :=
  if c = 0x3D then some 0 else if c ∈ base64Table then some (base64Table.idxOf c) else none

/-- The three bytes of a block. -/
def blockBytes (b0 b1 b2 b3 : Nat) : Bytes :=
  [UInt8.ofNat (b0 * 4 + b1 / 16), UInt8.ofNat (b1 * 16 + b2 / 4), UInt8.ofNat (b2 * 64 + b3)]

/-- The second loop of `ndpi_base64_decode`, with the bytes of the current block and
the output so far. -/
def decodeLoop : Bytes → List Nat → Nat → Bytes → Option Bytes
  | [], _, _, out => some out
  | c :: src, block, pad, out =>
    match dtable c with
    | none => decodeLoop src block pad out
    | some tmp =>
      let pad := if c = 0x3D then pad + 1 else pad
      match block with
      | [b0, b1, b2] =>
        let out := out ++ blockBytes b0 b1 b2 tmp
        if pad = 0 then decodeLoop src [] pad out
        else if pad ≤ 2 then some (out.take (out.length - pad))
        else none
      | _ => decodeLoop src (block ++ [tmp]) pad out

/-- `ndpi_base64_decode`. -/
def base64Decode (src : Bytes) : Option Bytes :=
  let count := (src.filter fun c => (dtable c).isSome).length
  if count = 0 ∨ count % 4 ≠ 0 then none else decodeLoop src [] 0 []

end Ndpi.Source.Base64
