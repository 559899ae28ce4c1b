import Ndpi.Lib.BitFields
import Ndpi.Source.Shoco.Model

/-!
# Compression of short strings

`shoco.c`: `shoco_compress` and `shoco_decompress`. A text is the `strlen` bytes that the
compressor is given, and it stops at a zero byte among them.
-/
namespace Ndpi.Source.Shoco
open Lib

/-- An entry of a table of ids, where -1 stands for none. -/
def tableId (entry : Int) : Option Nat := if entry < 0 then none else some entry.toNat

def chrId (c : UInt8) : Option Nat := tableId (chrIdsByChr.getD c.toNat (-1))

def successorId (last current : Nat) : Option Nat :=
  tableId ((successorIdsByChrIdAndChrId.getD last []).getD current (-1))

/-- The successor ids of at most `count` characters after one with the id `last`. -/
def successors : Nat → Nat → Bytes → List Nat
  | 0, _, _ => []
  | _ + 1, _, [] => []
  | count + 1, last, c :: rest =>
    match chrId c with
    | none => []
    | some current =>
      match successorId last current with
      | none => []
      | some id => id :: successors count current rest

/-- `check_indices`. -/
def checkIndices (indices : List Nat) (pack : Pack) : Bool :=
  (indices.zip pack.masks).all fun both => both.1 ≤ both.2

/-- `find_best_encoding`, from the last pack to the first. -/
def findBestEncoding (indices : List Nat) : Option Pack :=
  packs.reverse.find? fun pack => pack.bytesUnpacked ≤ indices.length && checkIndices indices pack

/-- What one turn of the loop writes, and how many characters it takes. -/
def compressTurn (c : UInt8) (rest : Bytes) : Bytes × Nat :=
  let lastResort : Bytes × Nat := (if 0x80 ≤ c then [0x00, c] else [c], 1)
  match chrId c with
  | none => lastResort
  | some id =>
    let indices := id :: successors maxSuccessorN id rest
    if indices.length < 2 then lastResort
    else
      match findBestEncoding indices with
      | some pack =>
        ((beBytes 4 (putFields pack.word indices pack.offsets)).take pack.bytesPacked,
          pack.bytesUnpacked)
      | none => lastResort

/-- The loop of `shoco_compress`; a turn takes at least one character. -/
def compressLoop (bufsize : Nat) : Nat → Bytes → Bytes → Option Bytes
  | 0, _, out => some out
  | _ + 1, [], out => some out
  | turns + 1, c :: rest, out =>
    if c = 0 then some out
    else
      let (bytes, taken) := compressTurn c rest
      if bufsize < out.length + bytes.length then none
      else compressLoop bufsize turns ((c :: rest).drop taken) (out ++ bytes)

/-- `shoco_compress`; `none` stands for `bufsize + 1`. -/
def compress (original : Bytes) (bufsize : Nat) : Option Bytes :=
  compressLoop bufsize original.length original []

/-- How often `decode_header` shifts. -/
def headerShifts : Nat → UInt8 → Nat
  | 0, _ => 0
  | bits + 1, val => if 0x80 ≤ val then headerShifts bits (val <<< 1) + 1 else 0

/-- `decode_header`; `none` stands for -1. -/
def decodeHeader (val : UInt8) : Option Nat :=
  match headerShifts 8 val with
  | 0 => none
  | shifts + 1 => some shifts

def chrByte (c : Char) : UInt8 := UInt8.ofNat c.toNat

/-- The characters of successor ids; `none` where a table is read outside its bounds. -/
def successorChrs : UInt8 → List Nat → Option Bytes
  | _, [] => some []
  | last, id :: ids => do
    let row ←
      if last.toNat < minChr then none else chrsByChrAndSuccessorId[last.toNat - minChr]?
    let c ← row[id]?
    let more ← successorChrs (chrByte c) ids
    some (chrByte c :: more)

/-- The characters of a packed word. -/
def unpack (pack : Pack) (word : Nat) : Option Bytes :=
  match getFields word pack.offsets pack.masks with
  | [] => some []
  | id :: ids => do
    let c ← chrsByChrId[id]?
    let more ← successorChrs (chrByte c) ids
    some (chrByte c :: more)

/-- What `shoco_decompress` comes to: `bufsize + 1`, `SIZE_MAX`, or a table was read
outside its bounds. -/
inductive Decompressed where
  | text (out : Bytes)
  | tooLong
  | corrupt
  | outside
  deriving DecidableEq, Repr

/-- The loop of `shoco_decompress`. The bytes of `code` that a pack does not set are those
of the turn before, which left them swapped. -/
def decompressLoop (bufsize : Nat) : Nat → Bytes → Bytes → Bytes → Decompressed
  | 0, _, _, out => .text out
  | _ + 1, [], _, out => .text out
  | turns + 1, b :: rest, code, out =>
    match decodeHeader b with
    | none =>
      if bufsize ≤ out.length then .tooLong
      else if b = 0 then
        match rest.head? with
        | none => .corrupt
        | some c => decompressLoop bufsize turns rest.tail code (out ++ [c])
      else decompressLoop bufsize turns rest code (out ++ [b])
    | some mark =>
      match packs[mark]? with
      | none => .outside
      | some pack =>
        if bufsize < out.length + pack.bytesUnpacked then .tooLong
        else if rest.length + 1 < pack.bytesPacked then .corrupt
        else
          let code := (b :: rest).take pack.bytesPacked ++ code.drop pack.bytesPacked
          match unpack pack (beNat code) with
          | none => .outside
          | some text =>
            decompressLoop bufsize turns ((b :: rest).drop pack.bytesPacked) code.reverse
              (out ++ text)

/-- `shoco_decompress`; a turn takes at least one byte. -/
def decompress (original : Bytes) (bufsize : Nat) : Decompressed :=
  decompressLoop bufsize original.length original [0, 0, 0, 0] []

/-- `ndpi_compress_str`, the bytes of which are none if they do not fit. -/
def compressStr (input : Bytes) (bufsize : Nat) : Bytes := (compress input bufsize).getD []

end Ndpi.Source.Shoco
