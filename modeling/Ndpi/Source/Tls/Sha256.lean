import Ndpi.Lib.Words

/-!
# SHA-256

`third_party/src/ndpi_sha256.c`.
-/
namespace Ndpi.Source.Tls.Sha256
open Lib

def rotRight (a b : UInt32) : UInt32 := (a >>> b) ||| (a <<< (32 - b))

def ch (x y z : UInt32) : UInt32 := (x &&& y) ^^^ (~~~x &&& z)

def maj (x y z : UInt32) : UInt32 := (x &&& y) ^^^ (x &&& z) ^^^ (y &&& z)

def ep0 (x : UInt32) : UInt32 := rotRight x 2 ^^^ rotRight x 13 ^^^ rotRight x 22

def ep1 (x : UInt32) : UInt32 := rotRight x 6 ^^^ rotRight x 11 ^^^ rotRight x 25

def sig0 (x : UInt32) : UInt32 := rotRight x 7 ^^^ rotRight x 18 ^^^ (x >>> 3)

def sig1 (x : UInt32) : UInt32 := rotRight x 17 ^^^ rotRight x 19 ^^^ (x >>> 10)

def k : List UInt32 := [
  0x428a2f98, 0x71374491, 0xb5c0fbcf, 0xe9b5dba5, 0x3956c25b, 0x59f111f1, 0x923f82a4, 0xab1c5ed5,
  0xd807aa98, 0x12835b01, 0x243185be, 0x550c7dc3, 0x72be5d74, 0x80deb1fe, 0x9bdc06a7, 0xc19bf174,
  0xe49b69c1, 0xefbe4786, 0x0fc19dc6, 0x240ca1cc, 0x2de92c6f, 0x4a7484aa, 0x5cb0a9dc, 0x76f988da,
  0x983e5152, 0xa831c66d, 0xb00327c8, 0xbf597fc7, 0xc6e00bf3, 0xd5a79147, 0x06ca6351, 0x14292967,
  0x27b70a85, 0x2e1b2138, 0x4d2c6dfc, 0x53380d13, 0x650a7354, 0x766a0abb, 0x81c2c92e, 0x92722c85,
  0xa2bfe8a1, 0xa81a664b, 0xc24b8b70, 0xc76c51a3, 0xd192e819, 0xd6990624, 0xf40e3585, 0x106aa070,
  0x19a4c116, 0x1e376c08, 0x2748774c, 0x34b0bcb5, 0x391c0cb3, 0x4ed8aa4a, 0x5b9cca4f, 0x682e6ff3,
  0x748f82ee, 0x78a5636f, 0x84c87814, 0x8cc70208, 0x90befffa, 0xa4506ceb, 0xbef9a3f7, 0xc67178f2]

/-- The words `a` to `h`. -/
structure State where
  a : UInt32
  b : UInt32
  c : UInt32
  d : UInt32
  e : UInt32
  f : UInt32
  g : UInt32
  h : UInt32
  deriving DecidableEq, Repr

/-- The words of a block. -/
def blockWords : Bytes → List UInt32
  | b0 :: b1 :: b2 :: b3 :: rest => UInt32.ofNat (beNat [b0, b1, b2, b3]) :: blockWords rest
  | _ => []

/-- One more word `m[i]`; the words before it are given from `m[i - 1]` down. -/
def nextWord (before : List UInt32) : List UInt32 :=
  (sig1 (before[1]?.getD 0) + before[6]?.getD 0 + sig0 (before[14]?.getD 0) +
    before[15]?.getD 0) :: before

/-- The array `m`. -/
def schedule (data : Bytes) : List UInt32 := (nextWord^[48] (blockWords data).reverse).reverse

def round (s : State) (word : UInt32 × UInt32) : State :=
  let t1 := s.h + ep1 s.e + ch s.e s.f s.g + word.1 + word.2
  let t2 := ep0 s.a + maj s.a s.b s.c
  ⟨t1 + t2, s.a, s.b, s.c, s.d + t1, s.e, s.f, s.g⟩

/-- `sha256_transform`. -/
def transform (s : State) (data : Bytes) : State :=
  let t := (k.zip (schedule data)).foldl round s
  ⟨s.a + t.a, s.b + t.b, s.c + t.c, s.d + t.d, s.e + t.e, s.f + t.f, s.g + t.g, s.h + t.h⟩

/-- `ndpi_SHA256_CTX`; `data` is the part of the block that is in use. -/
structure Context where
  data : Bytes
  bitlen : UInt64
  state : State

/-- `ndpi_sha256_init`. -/
def init : Context :=
  ⟨[], 0, ⟨0x6a09e667, 0xbb67ae85, 0x3c6ef372, 0xa54ff53a, 0x510e527f, 0x9b05688c, 0x1f83d9ab,
    0x5be0cd19⟩⟩

/-- `ndpi_sha256_update`. -/
def update (ctx : Context) : Bytes → Context
  | [] => ctx
  | byte :: rest =>
    let data := ctx.data ++ [byte]
    if data.length = 64 then update ⟨[], ctx.bitlen + 512, transform ctx.state data⟩ rest
    else update { ctx with data := data } rest

def State.bytes (s : State) : Bytes :=
  [s.a, s.b, s.c, s.d, s.e, s.f, s.g, s.h].flatMap fun word => beBytes 4 word.toNat

/-- `ndpi_sha256_final`. -/
def final (ctx : Context) : Bytes :=
  let padded := ctx.data ++ [0x80]
  let (state, data) :=
    if ctx.data.length < 56 then (ctx.state, padded ++ List.replicate (56 - padded.length) 0)
    else (transform ctx.state (padded ++ List.replicate (64 - padded.length) 0),
      List.replicate 56 0)
  let bitlen := ctx.bitlen + UInt64.ofNat (ctx.data.length * 8)
  (transform state (data ++ beBytes 8 bitlen.toNat)).bytes

/-- `ndpi_sha256`. -/
def ndpiSha256 (data : Bytes) : Bytes := final (update init data)

/-- The digest of `"abc"`. -/
example : ndpiSha256 [0x61, 0x62, 0x63] =
    [0xba, 0x78, 0x16, 0xbf, 0x8f, 0x01, 0xcf, 0xea, 0x41, 0x41, 0x40, 0xde, 0x5d, 0xae, 0x22, 0x23,
      0xb0, 0x03, 0x61, 0xa3, 0x96, 0x17, 0x7a, 0x9c, 0xb4, 0x10, 0xff, 0x61, 0xf2, 0x00, 0x15,
      0xad] := by decide +kernel

end Ndpi.Source.Tls.Sha256
