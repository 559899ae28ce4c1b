import Ndpi.Lib.Words

/-!
# Numbers and addresses in a byte stream

`ndpi_main.c:10692-10706,10760-10798`. A string is the list of its bytes, of which the
callers allow `max_chars_to_read` to be read. An address is the four bytes that `htonl`
leaves in memory.
-/
namespace Ndpi.Source.Bytestream
open Lib

/-- The loop, with the value so far and the counter behind `bytes_read`. -/
def toNumber : Bytes → Nat → Nat → Nat → Nat × Nat
  | c :: str, maxCharsToRead + 1, val, bytesRead =>
    if isDigit c then
      toNumber str maxCharsToRead (wrap32 (wrap32 (val * 10) + (c.toNat - 48)))
        (wrap16 (bytesRead + 1))
    else (val, bytesRead)
  | _, _, val, bytesRead => (val, bytesRead)

def ndpiBytestreamToNumber (str : Bytes) (maxCharsToRead bytesRead : Nat) : Nat × Nat :=
  toNumber str maxCharsToRead 0 bytesRead

def htonl (val : Nat) : Bytes := beBytes 4 val

/-- A number of the address from `read` on and the position behind it, unless it makes the
function return 0. -/
def ipv4Number (str : Bytes) (maxCharsToRead read : Nat) : Option (Nat × Nat) :=
  let result := ndpiBytestreamToNumber (str.drop read) (maxCharsToRead - read) read
  if result.1 > 255 ∨ read = result.2 ∨ maxCharsToRead = result.2 then none else some result

/-- The same with the dot behind the number. -/
def ipv4Dotted (str : Bytes) (maxCharsToRead read : Nat) : Option (Nat × Nat) := do
  let (c, read) ← ipv4Number str maxCharsToRead read
  if str[read]? = some 46 then some (c, wrap16 (read + 1)) else none

def ipv4Value (str : Bytes) (maxCharsToRead : Nat) : Option (Nat × Nat) := do
  let (c1, read) ← ipv4Dotted str maxCharsToRead 0
  let (c2, read) ← ipv4Dotted str maxCharsToRead read
  let (c3, read) ← ipv4Dotted str maxCharsToRead read
  let (c4, read) ← ipv4Number str maxCharsToRead read
  let val := wrap32 (wrap32 (wrap32 (wrap32 (c1 * 2 ^ 24) + c2 * 2 ^ 16) + c3 * 2 ^ 8) + c4)
  some (val, read)

/-- The address, zero for none, and `bytes_read` afterwards. -/
def ndpiBytestreamToIpv4 (str : Bytes) (maxCharsToRead bytesRead : Nat) : Bytes × Nat :=
  match ipv4Value str maxCharsToRead with
  | none => (htonl 0, bytesRead)
  | some (val, read) => (htonl val, wrap16 (bytesRead + read))

end Ndpi.Source.Bytestream
