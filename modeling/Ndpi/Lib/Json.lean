import Ndpi.Lib.Words

/-!
# JSON texts

RFC 8259 texts as bytes and a total reader for them. Members keep their order
and repetitions; string contents are the bytes the literal denotes, so octets
above 0x7F pass through as they stand. A number is `mantissa * 10 ^ exponent`.
`net` counts square brackets outside string literals: every text the reader
accepts opens as many of them as it closes.
-/
namespace Ndpi.Lib

inductive Json where
  | null
  | bool (value : Bool)
  | num (mantissa exponent : Int)
  | str (content : Bytes)
  | arr (elements : List Json)
  | obj (members : List (Bytes × Json))
  deriving Repr

namespace Json

def isSpace (b : UInt8) : Bool := b == 0x20 || b == 0x09 || b == 0x0A || b == 0x0D

def skipSpace (text : Bytes) : Bytes := text.dropWhile isSpace

def hexValue (b : UInt8) : Option Nat :=
  if 48 ≤ b && b ≤ 57 then some (b.toNat - 48)
  else if 97 ≤ b && b ≤ 102 then some (b.toNat - 87)
  else if 65 ≤ b && b ≤ 70 then some (b.toNat - 55)
  else none

/-- The octets of one UTF-16 code unit of a `\u` escape. -/
def unitBytes (unit : Nat) : Bytes :=
  if unit < 0x80 then [UInt8.ofNat unit]
  else if unit < 0x800 then [UInt8.ofNat (0xC0 + unit / 64), UInt8.ofNat (0x80 + unit % 64)]
  else [UInt8.ofNat (0xE0 + unit / 4096), UInt8.ofNat (0x80 + unit / 64 % 64),
    UInt8.ofNat (0x80 + unit % 64)]

/-- The byte a one-character escape stands for. -/
def simpleEscape (b : UInt8) : Option UInt8 :=
  if b = 0x22 then some 0x22
  else if b = 0x5C then some 0x5C
  else if b = 0x2F then some 0x2F
  else if b = 0x62 then some 0x08
  else if b = 0x66 then some 0x0C
  else if b = 0x6E then some 0x0A
  else if b = 0x72 then some 0x0D
  else if b = 0x74 then some 0x09
  else none

/-- Content of a string literal whose opening quote has been read, and the text
after its closing quote. -/
def readString : Bytes → Option (Bytes × Bytes)
  | [] => none
  | b :: rest =>
    if b = 0x22 then some ([], rest)
    else if b = 0x5C then
      match rest with
      | [] => none
      | e :: rest =>
        if e = 0x75 then
          match rest with
          | h1 :: h2 :: h3 :: h4 :: rest =>
            match hexValue h1, hexValue h2, hexValue h3, hexValue h4, readString rest with
            | some a, some b, some c, some d, some (content, after) =>
              some (unitBytes (((a * 16 + b) * 16 + c) * 16 + d) ++ content, after)
            | _, _, _, _, _ => none
          | _ => none
        else
          match simpleEscape e, readString rest with
          | some value, some (content, after) => some (value :: content, after)
          | _, _ => none
    else if b < 0x20 then none
    else
      match readString rest with
      | some (content, after) => some (b :: content, after)
      | none => none

/-- The digits after a decimal point, if there is one. -/
def readFraction : Bytes → Option (Bytes × Bytes)
  | [] => some ([], [])
  | b :: rest =>
    if b = 0x2E then
      if rest.takeWhile isDigit = [] then none
      else some (rest.takeWhile isDigit, rest.dropWhile isDigit)
    else some ([], b :: rest)

def dropSign (text : Bytes) : Bytes :=
  if text.head? = some 0x2D ∨ text.head? = some 0x2B then text.tail else text

/-- The exponent part, if there is one. -/
def readExponent : Bytes → Option (Int × Bytes)
  | [] => some (0, [])
  | b :: rest =>
    if b = 0x65 ∨ b = 0x45 then
      if (dropSign rest).takeWhile isDigit = [] then none
      else
        let value : Int := digitsValue ((dropSign rest).takeWhile isDigit)
        some (if rest.head? = some 0x2D then -value else value, (dropSign rest).dropWhile isDigit)
    else some (0, b :: rest)

/-- An unsigned number: no leading zeros, then fraction and exponent. -/
def readUnsigned (text : Bytes) : Option (Nat × Int × Bytes) :=
  let whole := text.takeWhile isDigit
  if whole = [] ∨ (whole.head? = some 48 ∧ whole.tail ≠ []) then none
  else
    match readFraction (text.dropWhile isDigit) with
    | none => none
    | some (fraction, rest) =>
      match readExponent rest with
      | none => none
      | some (exponent, rest) =>
        some (digitsValue (whole ++ fraction), exponent - fraction.length, rest)

def readNumber (text : Bytes) : Option (Json × Bytes) :=
  match text with
  | [] => none
  | b :: rest =>
    if b = 0x2D then
      match readUnsigned rest with
      | some (mantissa, exponent, after) => some (.num (-(mantissa : Int)) exponent, after)
      | none => none
    else
      match readUnsigned (b :: rest) with
      | some (mantissa, exponent, after) => some (.num mantissa exponent, after)
      | none => none

/-- The three literal names. -/
def readName (text : Bytes) : Option (Json × Bytes) :=
  if [0x74, 0x72, 0x75, 0x65] <+: text then some (.bool true, text.drop 4)
  else if [0x66, 0x61, 0x6C, 0x73, 0x65] <+: text then some (.bool false, text.drop 5)
  else if [0x6E, 0x75, 0x6C, 0x6C] <+: text then some (.null, text.drop 4)
  else none

-- `fuel` bounds the number of calls; every call has consumed a byte since its
-- caller started, so the length of the text is always enough.
mutual

def readValue : Nat → Bytes → Option (Json × Bytes)
  | 0, _ => none
  | fuel + 1, text =>
    match skipSpace text with
    | [] => none
    | b :: rest =>
      if b = 0x22 then
        match readString rest with
        | some (content, after) => some (.str content, after)
        | none => none
      else if b = 0x7B then
        if (skipSpace rest).head? = some 0x7D then some (.obj [], (skipSpace rest).tail)
        else
          match readMembers fuel rest with
          | some (members, after) => some (.obj members, after)
          | none => none
      else if b = 0x5B then
        if (skipSpace rest).head? = some 0x5D then some (.arr [], (skipSpace rest).tail)
        else
          match readElements fuel rest with
          | some (elements, after) => some (.arr elements, after)
          | none => none
      else if b = 0x74 ∨ b = 0x66 ∨ b = 0x6E then readName (b :: rest)
      else readNumber (b :: rest)

/-- The members of an object, up to and including its closing brace. -/
def readMembers : Nat → Bytes → Option (List (Bytes × Json) × Bytes)
  | 0, _ => none
  | fuel + 1, text =>
    match skipSpace text with
    | [] => none
    | b :: rest =>
      if b = 0x22 then
        match readString rest with
        | none => none
        | some (name, rest) =>
          match skipSpace rest with
          | [] => none
          | b :: rest =>
            if b = 0x3A then
              match readValue fuel rest with
              | none => none
              | some (value, rest) =>
                match skipSpace rest with
                | [] => none
                | b :: rest =>
                  if b = 0x2C then
                    match readMembers fuel rest with
                    | some (members, after) => some ((name, value) :: members, after)
                    | none => none
                  else if b = 0x7D then some ([(name, value)], rest)
                  else none
            else none
      else none

/-- The elements of an array, up to and including its closing bracket. -/
def readElements : Nat → Bytes → Option (List Json × Bytes)
  | 0, _ => none
  | fuel + 1, text =>
    match readValue fuel text with
    | none => none
    | some (value, rest) =>
      match skipSpace rest with
      | [] => none
      | b :: rest =>
        if b = 0x2C then
          match readElements fuel rest with
          | some (elements, after) => some (value :: elements, after)
          | none => none
        else if b = 0x5D then some ([value], rest)
        else none

end

/-- The value of a whole text; only space may follow it. -/
def read (text : Bytes) : Option Json :=
  match readValue (text.length + 1) text with
  | some (value, rest) => if skipSpace rest = [] then some value else none
  | none => none

end Json
end Ndpi.Lib
