import Ndpi.Lib.Substring
import Ndpi.Source.Tls.Dtls

/-!
# The alternative names of a certificate

`protocols/tls.c:545-551,899-1064` and `ndpi_utils.c:3632-3644`: the part of
`processCertificateElements` that reads a subjectAltName extension and compares its
names with the host name of the flow. A C string is the list of its bytes.
Allocations succeed.
-/
namespace Ndpi.Source.Tls.Certificate
open Lib Source.Tls

/-- The text of a literal. -/
def ascii (text : String) : Bytes := text.toList.map fun c => UInt8.ofNat c.toNat

/-- The C string at the start of some bytes. -/
def cString (bytes : Bytes) : Bytes := bytes.takeWhile (· ≠ 0)

def tolower (b : UInt8) : UInt8 := if 0x41 ≤ b ∧ b ≤ 0x5A then b + 0x20 else b

def cleanupServerName (buffer : Bytes) : Bytes := buffer.map tolower

/-- `ndpi_isprint` of a `char`, which is negative from `0x80` on. -/
def isprint (b : UInt8) : Bool := 0x20 ≤ b && b ≤ 0x7E

/-- `ndpi_normalize_printable_string`: the text it leaves and what it returns. -/
def normalizePrintableString (str : Bytes) : Bytes × Bool :=
  (str.map fun b => if isprint b then b else 0x3F, str.all isprint)

inductive CertificateRisk where
  | invalidCharacters
  | possibleExploit
  | tlsSuspiciousExtension
  | tlsCertificateMismatch
  | numericIpHost
  deriving DecidableEq, Repr

/-- A call of `ndpi_set_risk` or `ndpi_unset_risk`. -/
inductive RiskUse where
  | set (risk : CertificateRisk) (info : Option Bytes)
  | unset (risk : CertificateRisk)
  deriving DecidableEq, Repr

/-- What the code asks of the rest of the library: the configuration, whether the
flow comes from RDP, `inet_ntop` for an IPv6 address, and whether a name stands for
a protocol. -/
structure CertificateEnv where
  tlsCertServerNamesEnabled : Bool
  tlsSubclassificationEnabled : Bool
  mismatchInfoEnabled : Bool
  fromRdp : Bool
  inetNtop6 : Bytes → Bytes
  matchHostnameProtocol : Bytes → Bool

/-- The locals `i` and `matched_name`, the fields of the flow that change, and the
risks asked for so far. -/
structure AltNames where
  i : Nat
  matchedName : Bool
  serverNames : Option Bytes
  subprotocolDetected : Bool
  risks : List RiskUse
  deriving DecidableEq, Repr

def isNameType (type : UInt8) : Bool := type = 0x81 || type = 0x82 || type = 0x87

/-- The text written to `dNSName`, before it is cleaned up. -/
def nameText (env : CertificateEnv) (type : UInt8) (field : Bytes) : Bytes :=
  if type = 0x87 then
    if field.length = 4 then
      decimal (byteAt field 0).toNat ++ 0x2E :: decimal (byteAt field 1).toNat ++
        0x2E :: decimal (byteAt field 2).toNat ++ 0x2E :: decimal (byteAt field 3).toNat
    else if field.length = 16 then env.inetNtop6 field
    else []
  else cString field

/-- The comparison of a name with the host name. -/
def matchesHost (hostServerName dNSName : Bytes) : Bool :=
  if dNSName.head? = some 0x2A then
    match firstOccurrence dNSName.tail hostServerName with
    | some label =>
      if 0x2E ∈ hostServerName then hostServerName.idxOf 0x2E ≤ label else true
    | none => false
  else hostServerName = dNSName

/-- What becomes of `server_names`, whose length is an unsigned 16-bit number. -/
def addServerName (serverNames : Option Bytes) (dNSName : Bytes) : Option Bytes :=
  match serverNames with
  | none => some dNSName
  | some names =>
    if wrap16 (names.length + dNSName.length + 1) > names.length then
      some (names ++ 0x2C :: dNSName)
    else some names

/-- A name of the list, from the clean-up on; the loop goes on at `i`. -/
def useName (env : CertificateEnv) (hostServerName text : Bytes) (i : Nat) (s : AltNames) :
    AltNames :=
  let normalized := normalizePrintableString (cleanupServerName text)
  let dNSName := normalized.1
  let subprotocol := env.tlsSubclassificationEnabled && !s.subprotocolDetected && !env.fromRdp &&
    env.matchHostnameProtocol dNSName
  { i := i
    matchedName := s.matchedName || matchesHost hostServerName dNSName
    serverNames :=
      if env.tlsCertServerNamesEnabled then addServerName s.serverNames dNSName else s.serverNames
    subprotocolDetected := s.subprotocolDetected || subprotocol
    risks := s.risks ++
      (if normalized.2 then [] else
        [.set .invalidCharacters (some dNSName),
          .set .possibleExploit (some (ascii "Invalid dNSName name"))]) ++
      (if subprotocol then [.unset .numericIpHost] else []) }

/-- `"Unknown extension %02X"` of one of the types the loop accepts. -/
def unknownExtension (type : UInt8) : Bytes :=
  ascii (if type = 0x81 then "Unknown extension 81"
    else if type = 0x82 then "Unknown extension 82" else "Unknown extension 87")

/-- One iteration of the loop over the names. -/
def nameStep (env : CertificateEnv) (hostServerName payload : Bytes) (s : AltNames) :
    Turn AltNames AltNames :=
  if s.i < payload.length then
    let type := byteAt payload s.i
    let len := (byteAt payload (s.i + 1)).toNat
    if isNameType type then
      if s.i + 1 < payload.length ∧ s.i + len + 2 < payload.length then
        if len = 0 ∨ s.i + 2 + len > payload.length then .leave { s with i := s.i + 2 }
        else
          let field := (payload.drop (s.i + 2)).take len
          .stay (useName env hostServerName (nameText env type field) (s.i + 2 + len) s)
      else
        .leave { s with
          risks := s.risks ++ [.set .tlsSuspiciousExtension (some (unknownExtension type))] }
    else .leave s
  else .leave s

lemma nameStep_advances (stays : nameStep env hostServerName payload s = .stay next) :
    s.i < next.i ∧ s.i < payload.length := by
  dsimp only [nameStep] at stays
  split at stays
  · next inside =>
    split at stays
    · split at stays
      · split at stays
        · cases stays
        · cases stays
          exact ⟨by dsimp only [useName]; omega, inside⟩
      · cases stays
    · cases stays
  · cases stays

def nameLoop (env : CertificateEnv) (hostServerName payload : Bytes) (s : AltNames) : AltNames :=
  match _turn : nameStep env hostServerName payload s with
  | .leave result => result
  | .stay next => nameLoop env hostServerName payload next
termination_by payload.length - s.i
decreasing_by
  have moves := nameStep_advances _turn
  omega

lemma nameLoop_leave (leaves : nameStep env hostServerName payload s = .leave result) :
    nameLoop env hostServerName payload s = result := by
  rw [nameLoop.eq_def]
  split
  · next turn =>
    rw [leaves] at turn
    cases turn
    rfl
  · next turn =>
    rw [leaves] at turn
    cases turn

lemma nameLoop_stay (stays : nameStep env hostServerName payload s = .stay next) :
    nameLoop env hostServerName payload s = nameLoop env hostServerName payload next := by
  rw [nameLoop.eq_def]
  split
  · next turn =>
    rw [stays] at turn
    cases turn
  · next turn =>
    rw [stays] at turn
    cases turn
    rfl

/-- Past all but the last byte of a length. -/
def skipLength (payload : Bytes) (i : Nat) : Nat :=
  let first := (byteAt payload i).toNat
  if first ≥ 0x80 then i + (first - 0x80) else i

/-- `"%s vs %s"` within 128 bytes. -/
def mismatchInfo (hostServerName : Bytes) (serverNames : Option Bytes) : Bytes :=
  (hostServerName ++ ascii " vs " ++ serverNames.getD (ascii "(null)")).take 127

/-- The test after the loop. -/
def flagMismatch (env : CertificateEnv) (hostServerName : Bytes) (s : AltNames) : AltNames :=
  if s.matchedName then s
  else
    { s with risks := s.risks ++ [.set .tlsCertificateMismatch
        (if env.mismatchInfoEnabled then some (mismatchInfo hostServerName s.serverNames)
          else none)] }

/-- The branch of `processCertificateElements` for the subjectAltName extension whose
identifier `55 1D 11` is at `s.i`; `matched_name` is set first. -/
def subjectAltName (env : CertificateEnv) (hostServerName payload : Bytes) (s : AltNames) :
    AltNames :=
  let s := { s with matchedName := hostServerName = [] }
  let i := s.i + 3
  let i := if i < payload.length ∧ byteAt payload i = 0x04 then i + 1 else i + 4
  if i < payload.length then
    let i := skipLength payload i
    if i < payload.length then
      let i := i + 2
      if i < payload.length then
        let i := skipLength payload i + 1
        flagMismatch env hostServerName (nameLoop env hostServerName payload { s with i := i })
      else { s with i := i }
    else { s with i := i }
  else { s with i := i }

end Ndpi.Source.Tls.Certificate
