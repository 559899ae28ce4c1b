import Ndpi.Lib.CString
import Ndpi.Lib.Json

/-!
# Lengths, URLs and host names

`ndpi_utils.c:2204-2227,2357-2433,3648-3712,4141-4173`: reading a BER length and the checks
of URLs and host names. Allocations succeed.
-/
namespace Ndpi.Source.Utils
open Lib Lib.CString
open Lib.Json (hexValue)

/-- The loop of `asn1_ber_decode_length`. -/
def berLengthLoop : Nat → Bytes → Nat
  | value, [] => value
  | value, octet :: rest => berLengthLoop (value ||| octet.toNat <<< (rest.length * 8)) rest

/-- `asn1_ber_decode_length` of the first `payload_len` bytes of the payload: the length
and `value_len`, or `none` for -1. -/
def asn1BerDecodeLength : Bytes → Option (Nat × Nat)
  | [] => none
  | first :: rest =>
    if first = 0xFF then none
    else if first ≤ 0x80 then some (first.toNat, 1)
    else if first &&& 0x7F = 0 then none
    else
      let valueLen := (first &&& 0x7F).toNat
      if 4 < valueLen ∨ rest.length + 1 ≤ valueLen + 1 then none
      else some (berLengthLoop 0 (rest.take valueLen), valueLen + 1)

/-- `ndpi_url_decode` of a string; `none` for -1. -/
def urlDecode : Bytes → Option Bytes
  | [] => some []
  | 0x25 :: a :: b :: rest =>
    match hexValue a, hexValue b with
    | some high, some low => (urlDecode rest).map (UInt8.ofNat (high * 16 + low) :: ·)
    | _, _ => none
  | c :: rest =>
    if c = 0x25 then none else (urlDecode rest).map ((if c = 0x2B then 0x20 else c) :: ·)

/-- The checks of a decoded value; `rce` answers no without the library it needs. -/
structure Detectors where
  xss : Bytes → Bool
  sql : Bytes → Bool
  rce : Bytes → Bool

/-- The values of `ndpi_risk_enum` that `ndpi_validate_url` returns. -/
inductive UrlRisk where
  | noRisk
  | possibleXss
  | possibleSqlInjection
  | possibleRceInjection
  | suspiciousUrl
  deriving DecidableEq

/-- What a parameter's value is found to be. -/
def valueRisk (is : Detectors) (value : Bytes) : UrlRisk :=
  match (urlDecode value).map cString with
  | none | some [] => .noRisk
  | some decoded =>
    if is.xss decoded then .possibleXss
    else if is.sql decoded then .possibleSqlInjection
    else if is.rce decoded then .possibleRceInjection
    else .noRisk

/-- The loop of `ndpi_validate_url`. -/
def parametersRisk (is : Detectors) : List Bytes → UrlRisk
  | [] => .noRisk
  | str :: rest =>
    if 0x3D ∈ str then
      let rc := valueRisk is ((str.dropWhile (· ≠ 0x3D)).drop 1)
      if rc ≠ .noRisk then rc else parametersRisk is rest
    else .noRisk

/-- What stands behind the first `?`. -/
def query (url : Bytes) : Bytes := (url.dropWhile (· ≠ 0x3F)).drop 1

/-- `ndpi_validate_url` of a string, with the risk and the message that it sets for a flow. -/
def validateUrl (is : Detectors) (url : Bytes) : UrlRisk × Option (UrlRisk × Bytes) :=
  let rc := parametersRisk is (tokens 0x26 (query url))
  if rc ≠ .noRisk then
    (rc, some (rc, (ascii "Suspicious URL [" ++ url ++ ascii "]").take 127))
  else (if strstr url (ascii "..") then .suspiciousUrl else .noRisk, none)

/-- `isalnum` in the C locale. -/
def isalnum (c : UInt8) : Bool :=
  (0x30 ≤ c && c ≤ 0x39) || (0x41 ≤ c && c ≤ 0x5A) || (0x61 ≤ c && c ≤ 0x7A)

/-- The loop of `ndpi_is_valid_hostname` over the characters of the string that the length
covers: the length of the last label, and whether there is a label before it. -/
def hostnameLoop : Nat → Bool → Bytes → Option (Nat × Bool)
  | labelLen, hasValidLabel, [] => some (labelLen, hasValidLabel)
  | labelLen, hasValidLabel, c :: rest =>
    if c = 0x2E then
      if labelLen = 0 ∨ labelLen > 63 then none else hostnameLoop 0 true rest
    else if !(isalnum c || c = 0x2D) then none
    else if labelLen = 0 ∧ !isalnum c then none
    else if labelLen + 1 > 63 then none
    else hostnameLoop (labelLen + 1) hasValidLabel rest

/-- `ndpi_is_valid_hostname`. -/
def isValidHostname (hostname : Bytes) (len : Nat) : Bool :=
  let name := cString (hostname.take len)
  if len = 0 ∨ name = [] ∨ len > 253 then false
  else
    match hostnameLoop 0 false name with
    | none => false
    | some (labelLen, hasValidLabel) =>
      if labelLen = 0 ∨ !(name.getLast?.any isalnum) then false else hasValidLabel || len > 0

end Ndpi.Source.Utils
