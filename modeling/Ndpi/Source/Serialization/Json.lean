import Ndpi.Source.Serialization.State

/-!
# JSON output

`ndpi_serializer.c:84-166,744-814`: the string escaper, the two functions every
JSON operation is wrapped in, and the kinds of write that stand between them.
-/
namespace Ndpi.Source.Serialization
open Lib

/-- What the escaper writes for a byte up to 0x7E. -/
def escapeAscii (c : UInt8) : Bytes :=
  if c = 0x5C ∨ c = 0x22 ∨ c = 0x2F then [0x5C, c]
  else if c = 0x08 then [0x5C, 0x62]
  else if c = 0x09 then [0x5C, 0x74]
  else if c = 0x0A then [0x5C, 0x6E]
  else if c = 0x0C then [0x5C, 0x66]
  else if c = 0x0D then [0x5C, 0x72]
  else if c < 0x20 then []
  else [c]

def isContinuation (c : UInt8) : Bool := 0x80 ≤ c && c ≤ 0xBF

/-- The loop of `ndpi_json_string_escape` from position `j` of the destination.
The bound is tested before a source character, not before each byte. -/
def escapeLoop (dstMaxLen : Int) : Nat → Bytes → Bytes
  | _, [] => []
  | j, c :: rest =>
    if dstMaxLen ≤ (j : Int) then []
    else if c ≤ 0x7E then
      escapeAscii c ++ escapeLoop dstMaxLen (j + (escapeAscii c).length) rest
    else if c = 0x7F then escapeLoop dstMaxLen j rest
    else
      match rest with
      | [] => []
      | c1 :: rest1 =>
        if 0xC2 ≤ c && c ≤ 0xDF && isContinuation c1 then
          c :: c1 :: escapeLoop dstMaxLen (j + 2) rest1
        else
          match rest1 with
          | [] => escapeLoop dstMaxLen j [c1]
          | c2 :: rest2 =>
            if 0xE0 ≤ c && c ≤ 0xEF && isContinuation c1 && isContinuation c2 then
              c :: c1 :: c2 :: escapeLoop dstMaxLen (j + 3) rest2
            else
              match rest2 with
              | [] => escapeLoop dstMaxLen j [c1, c2]
              | c3 :: rest3 =>
                if 0xF0 ≤ c && c ≤ 0xF4 && isContinuation c1 && isContinuation c2 &&
                    isContinuation c3 then
                  c :: c1 :: c2 :: c3 :: escapeLoop dstMaxLen (j + 4) rest3
                else escapeLoop dstMaxLen j (c1 :: c2 :: c3 :: rest3)

/-- The characters `ndpi_json_string_escape` writes from `dst` on; it returns
their number. -/
def jsonStringEscape (src : Bytes) (dstMaxLen : Int) : Bytes :=
  0x22 :: escapeLoop dstMaxLen 1 src ++ [0x22]

/-- `ndpi_serialize_json_pre`: take back the closing characters the last
operation left, or open the next record. -/
def serializeJsonPre (s : Serializer) : Serializer :=
  if s.status.flags.eor then
    let s := { s with status.flags.eor := false }
    let s := if s.multilineJsonArray then s.put 0x0A else s.takeBack.put 0x2C
    if s.innerJson then s else s.put 0x7B
  else
    let s := if !s.multilineJsonArray && s.status.flags.array then s.takeBack else s
    let s := if s.innerJson then s else s.takeBack
    if s.status.flags.list then
      let s := if s.multilineJsonArray then s else s.takeBack
      if s.status.flags.sol then { s with status.flags.sol := false } else s.put 0x2C
    else if s.status.flags.sob then { s with status.flags.sob := false }
    else if s.status.flags.comma then s.put 0x2C
    else s

/-- A closing character, if the buffer has room for it. -/
def Serializer.putChecked (s : Serializer) (byte : UInt8) : Outcome :=
  if s.buffer.size ≤ s.status.used then failed s else ok (s.put byte)

/-- `ndpi_serialize_json_post`: close the list, the object and the array again. -/
def serializeJsonPost (s : Serializer) : Outcome :=
  (if !s.multilineJsonArray && s.status.flags.list then s.putChecked 0x5D else ok s).andThen
    fun s =>
  if s.buffer.size ≤ s.status.used then failed s
  else
    let s := if !s.innerJson || s.status.flags.ceob then
      { s.put 0x7D with status.flags.ceob := false } else s
    (if !s.multilineJsonArray && s.status.flags.array then s.putChecked 0x5D else ok s).andThen
      fun s => ok { s with status.flags.comma := true }

/-- One write into the JSON text. -/
inductive Chunk where
  /-- `snprintf` into the rest of the buffer, which must take all of it. -/
  | print (text : Bytes)
  /-- `ndpi_json_string_escape` into the rest of the buffer. -/
  | escape (src : Bytes)
  /-- One character, unchecked. -/
  | put (byte : UInt8)
  /-- `memcpy`, unchecked. -/
  | copy (bytes : Bytes)
  deriving DecidableEq, Repr

/-- The escaper ends with `dst[j+1] = 0`, one past the byte after its output. -/
def Serializer.emit (s : Serializer) : Chunk → Outcome
  | .print text =>
    let s' := { s with buffer.data := snprintfAt s.buffer.data s.status.used s.buffDiff text }
    if s.buffDiff ≤ text.length then failed s' else ok (s'.advance text.length)
  | .escape src =>
    let out := jsonStringEscape src (toInt32 s.buffDiff)
    ok (((s.storeAll s.status.used out).storeAll (s.status.used + out.length + 1) [0]).advance
      out.length)
  | .put byte => ok (s.put byte)
  | .copy bytes => ok (s.append bytes)

def Serializer.emitAll : List Chunk → Serializer → Outcome
  | [], s => ok s
  | chunk :: rest, s => (s.emit chunk).andThen (emitAll rest)

/-- The JSON branch of a scalar operation: the key is left out inside a list. -/
def jsonItem (key value : List Chunk) (s : Serializer) : Outcome :=
  let s := serializeJsonPre s
  (Serializer.emitAll ((if s.status.flags.list then [] else key) ++ value) s).andThen
    serializeJsonPost

end Ndpi.Source.Serialization
