import Ndpi.Lib.Scan

/-!
# The certificates of a handshake message

`protocols/tls.c:1182-1308`: `processCertificate` checks the lengths of the message and
of its list, and walks over the certificates. The SHA-1 fingerprint of a certificate and
`processCertificateElements` are outside; what is passed to them is recorded. All sums are
below `2 ^ 26`, so none of the 32-bit ones wraps.
-/
namespace Ndpi.Source.Tls.CertificateList
open Lib

/-- What the function asks of the rest of the library and of the flow. `malicious` is the
lookup in `malicious_sha1_hashmap`, if there is one. -/
structure CertificateContext where
  isDtls : Bool
  tlsSha1FingerprintEnabled : Bool
  fingerprint : Bytes → String
  malicious : Option (String → Bool)
  tlsMaxNumBlocksToAnalyze : Nat
  numTlsBlocks : Nat

/-- What the function does, in order. A slice of the payload is its offset and its length. -/
inductive CertificateEffect where
  | malformedPacket (info : String)
  | sha1 (offset len : Nat)
  | maliciousSha1 (info : String)
  | processElements (offset len : Nat)
  | matchJa4
  | stopExtraPackets
  deriving DecidableEq, Repr

/-- The eight bytes more in the header of a DTLS handshake message. -/
def dtlsExtra (ctx : CertificateContext) : Nat := if ctx.isDtls then 8 else 0

inductive LengthError where
  | message
  | list
  deriving DecidableEq, Repr

def LengthError.code : LengthError → Int
  | .message => -1
  | .list => -2

def LengthError.info : LengthError → String
  | .message => "Unvalid lenght"
  | .list => "Invalid certificate offset"

/-- The two checks at the start; if they pass, the length of the list. -/
def checkLengths (ctx : CertificateContext) (payload : Bytes) : Scan (Except LengthError Nat) := do
  let length ← Scan.be24 payload 1
  let certificatesOffset := 7 + dtlsExtra ctx
  let high ← Scan.byte payload 1
  if payload.length ≠ length + 4 + dtlsExtra ctx ∨ high ≠ 0 ∨
      certificatesOffset ≥ payload.length then
    pure (.error .message)
  else
    let certificatesLength ← Scan.be24 payload (certificatesOffset - 3)
    let high ← Scan.byte payload (certificatesOffset - 3)
    if high ≠ 0 ∨ certificatesLength + 3 ≠ length then pure (.error .list)
    else pure (.ok certificatesLength)

structure CertificateWalk where
  offset : Nat
  numFound : UInt8
  effects : List CertificateEffect

/-- The fingerprint of the certificate in this slice. -/
def sha1Fingerprint (ctx : CertificateContext) (payload : Bytes) (offset len : Nat) :
    Scan (List CertificateEffect) := do
  if ctx.tlsSha1FingerprintEnabled then
    let certificate ← Scan.ofAccess ((⟨payload, []⟩ : Memory).fetch offset len)
    let text := ctx.fingerprint certificate
    let known := (ctx.malicious.map fun find => find text).getD false
    pure (.sha1 offset len :: if known then [.maliciousSha1 text] else [])
  else pure []

/-- Only the first certificate is dissected; the counter has eight bits. -/
def dissectCertificate (ctx : CertificateContext) (payload : Bytes) (numFound : UInt8)
    (offset len : Nat) : Scan (List CertificateEffect) := do
  if numFound = 0 then
    let hashed ← sha1Fingerprint ctx payload offset len
    pure (hashed ++ [.processElements offset len])
  else pure []

/-- One iteration of the walk. -/
def certificateTurn (ctx : CertificateContext) (payload : Bytes) (certificatesLength : Nat)
    (st : CertificateWalk) : Scan (Turn CertificateWalk CertificateWalk) := do
  if st.offset < certificatesLength then
    let len ← Scan.be24 payload st.offset
    let high ← Scan.byte payload st.offset
    if len = 0 ∨ high ≠ 0 ∨ st.offset + len > 4 + certificatesLength + dtlsExtra ctx then
      pure (.leave st)
    else
      let offset := st.offset + 3
      let dissected ← dissectCertificate ctx payload st.numFound offset len
      pure (.stay ⟨offset + len, st.numFound + 1, st.effects ++ dissected⟩)
  else pure (.leave st)

/-- `processCertificate`, with fuel for its loop. -/
def processCertificate (ctx : CertificateContext) (fuel : Nat) (payload : Bytes) :
    Scan (Int × List CertificateEffect) := do
  match ← checkLengths ctx payload with
  | .error error => pure (error.code, [.malformedPacket error.info])
  | .ok certificatesLength =>
    let st ← Scan.untilLeave (certificateTurn ctx payload certificatesLength) fuel
      ⟨7 + dtlsExtra ctx, 0, []⟩
    let enough := ctx.tlsMaxNumBlocksToAnalyze ≠ 0 ∧
      ctx.numTlsBlocks ≥ ctx.tlsMaxNumBlocksToAnalyze
    pure (1, st.effects ++ if enough then [.matchJa4, .stopExtraPackets] else [])

end Ndpi.Source.Tls.CertificateList
