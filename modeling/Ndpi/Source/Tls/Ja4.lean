import Mathlib.Data.List.Sort
import Ndpi.Source.Tls.Blocks
import Ndpi.Source.Tls.Hello

/-!
# The JA4 fingerprint of a client hello

`protocols/tls.c:2181-2228,2232-2473` and `ndpi_typedefs.h:1559-1570`: `ndpi_compute_ja4`
from what was read of the client hello. The fingerprint has 36 characters, which fit into
its buffer. The raw form of the fingerprint is left out.
-/
namespace Ndpi.Source.Tls
open Lib
open Source.Tls.Blocks (hexByte)

/-- `ndpi_tls_client_info`, without the text of the signature algorithms and the groups of
key shares. `invalidJa` is the local `invalid_ja`. -/
structure ClientInfo where
  tlsHandshakeVersion : Nat
  cipher : List Nat
  tlsExtension : List Nat
  ellipticCurveGroup : List Nat
  ellipticCurvePointFormat : List UInt8
  signatureAlgorithm : List Nat
  supportedVersion : List Nat
  alpn : Bytes
  alpnOriginalLast : UInt8
  invalidJa : Bool

/-- The fields of the flow that matter here; `numericIpHost` is the risk
`NDPI_NUMERIC_IP_HOST`. -/
structure HelloFlow where
  l4Udp : Bool
  hostServerName : Bytes
  numericIpHost : Bool
  subprotocolDetected : Bool
  advertisedAlpns : Option Bytes

structure Ja4Config where
  tlsNdpifpIgnoreSniExtension : Bool
  tlsJaIgnoreEphemeralExtensions : Bool

def skipTlsExtension (cfg : Ja4Config) (id : Nat) : Bool :=
  (id = 0 && cfg.tlsNdpifpIgnoreSniExtension) ||
    (cfg.tlsJaIgnoreEphemeralExtensions && id ∈ [0x23, 0x29, 0x15, 0x2b, 0x0a])

def isGreaseVersion (version : Nat) : Bool :=
  version ∈ [0x0a0a, 0x1a1a, 0x2a2a, 0x3a3a, 0x4a4a, 0x5a5a, 0x6a6a, 0x7a7a, 0x8a8a, 0x9a9a,
    0xaaaa, 0xbaba, 0xcaca, 0xdada, 0xeaea, 0xfafa]

/-- The highest version that the client supports. -/
def ja4Version (ja : ClientInfo) : Nat :=
  ja.supportedVersion.foldl (fun version supported =>
    if !isGreaseVersion supported && version < supported then supported else version)
    ja.tlsHandshakeVersion

def versionChars : Nat → Bytes
  | 0x0304 => [0x31, 0x33]
  | 0x0303 => [0x31, 0x32]
  | 0x0302 => [0x31, 0x31]
  | 0x0301 => [0x31, 0x30]
  | 0x0300 => [0x73, 0x33]
  | 0x0002 => [0x73, 0x32]
  | 0xFEFF => [0x64, 0x31]
  | 0xFEFD => [0x64, 0x32]
  | 0xFEFC => [0x64, 0x33]
  | _ => [0x30, 0x30]

/-- `"%02u"` of a number below 100. -/
def twoDigits (n : Nat) : Bytes := [UInt8.ofNat (48 + n / 10), UInt8.ofNat (48 + n % 10)]

/-- `"%04x"`. -/
def hex4 (n : Nat) : Bytes := (beBytes 2 n).flatMap hexByte

/-- A loop over a list that may be left. -/
def overList {σ α : Type} (step : σ → α → Turn σ σ) : σ → List α → σ
  | s, [] => s
  | s, a :: rest =>
    match step s a with
    | .stay t => overList step t rest
    | .leave t => t

/-- `snprintf` behind a text, if all of it and a NUL fit into the buffer. -/
def appendText (size : Nat) (text piece : Bytes) : Option Bytes :=
  if text.length + piece.length < size then some (text ++ piece) else none

/-- `JA_STR_LEN`. -/
def jaStrLen : Nat := 1024

/-- The size of `tmp_ndpi_str`. -/
def ndpiStrLen : Nat := 512

/-- One iteration of the loop over the ciphers, each with its index. -/
def addCipherText (text : Bytes) (cipher : Nat × Nat) : Turn Bytes Bytes :=
  match appendText jaStrLen text ((if cipher.2 > 0 then [0x2C] else []) ++ hex4 cipher.1) with
  | some text => .stay text
  | none => .leave text

def cipherText (ciphers : List Nat) : Bytes := overList addCipherText [] ciphers.zipIdx

/-- `tmp_str` and `tmp_ndpi_str`, with the numbers of extensions in them. -/
structure Ja4Texts where
  text : Bytes
  numExtn : Nat
  ndpiText : Bytes
  numNdpiExtn : Nat

/-- One iteration of the loop over the extensions. -/
def addExtensionText (cfg : Ja4Config) (t : Ja4Texts) (id : Nat) : Turn Ja4Texts Ja4Texts :=
  if id > 0 ∧ id ≠ 0x10 then
    match appendText jaStrLen t.text ((if t.numExtn > 0 then [0x2C] else []) ++ hex4 id) with
    | none => .leave t
    | some text =>
      let t := { t with text := text, numExtn := t.numExtn + 1 }
      if skipTlsExtension cfg id then .stay t
      else
        match appendText ndpiStrLen t.ndpiText
          ((if t.numNdpiExtn > 0 then [0x2C] else []) ++ hex4 id) with
        | none => .leave t
        | some text => .stay { t with ndpiText := text, numNdpiExtn := t.numNdpiExtn + 1 }
  else .stay t

/-- One iteration of the loop over the signature algorithms, each with its index. -/
def addSignatureText (t : Ja4Texts) (algorithm : Nat × Nat) : Turn Ja4Texts Ja4Texts :=
  let piece := (if algorithm.2 > 0 then [0x2C] else [0x5F]) ++ hex4 algorithm.1
  match appendText jaStrLen t.text piece with
  | none => .leave t
  | some text =>
    let t := { t with text := text }
    match appendText ndpiStrLen t.ndpiText piece with
    | none => .leave t
    | some text => .stay { t with ndpiText := text }

def extensionTexts (cfg : Ja4Config) (extensions signatureAlgorithms : List Nat) : Ja4Texts :=
  overList addSignatureText (overList (addExtensionText cfg) ⟨[], 0, [], 0⟩ extensions)
    signatureAlgorithms.zipIdx

/-- Six bytes of a digest, or of zeros if there is nothing to hash. -/
def ja4Hash (sha256 : Bytes → Bytes) (count : Nat) (text : Bytes) : Bytes :=
  ((if count > 0 then sha256 text else List.replicate 6 0).take 6).flatMap hexByte

/-- `strncpy` of a whole buffer. -/
def strncpy (source : Bytes) : Bytes :=
  let text := source.takeWhile (· ≠ 0)
  text ++ List.replicate (source.length - text.length) 0

/-- `ja4_client` and `ja4_ndpi_client`. -/
structure Ja4 where
  client : Bytes
  ndpiClient : Bytes
  deriving DecidableEq

/-- The fingerprint up to its first hash. -/
def ja4Head (ctx : HelloContext) (flow : HelloFlow) (ja : ClientInfo) : Bytes :=
  let isDtls := (flow.l4Udp && ctx.quicVersion = 0) || ctx.maybeDtls
  let protocol : UInt8 := if isDtls then 0x64 else if ctx.quicVersion ≠ 0 then 0x71 else 0x74
  let sni : UInt8 := if flow.hostServerName = [] then 0x69 else if flow.numericIpHost then 0x69
    else 0x64
  let alpnFirst := if byteAt ja.alpn 0 ≠ 0 then byteAt ja.alpn 0 else 0x30
  [protocol] ++ versionChars (ja4Version ja) ++ [sni] ++ twoDigits (min 99 ja.cipher.length) ++
    twoDigits (min 99 ja.tlsExtension.length) ++ [alpnFirst, ja.alpnOriginalLast, 0x5F]

/-- `ndpi_compute_ja4`. -/
def ndpiComputeJa4 (sha256 : Bytes → Bytes) (cfg : Ja4Config) (ctx : HelloContext)
    (flow : HelloFlow) (ja : ClientInfo) : Ja4 :=
  let ciphers := ja.cipher.insertionSort (· ≤ ·)
  let extensions := ja.tlsExtension.insertionSort (· ≤ ·)
  let head := ja4Head ctx flow ja ++ ja4Hash sha256 ciphers.length (cipherText ciphers) ++ [0x5F]
  let texts := extensionTexts cfg extensions ja.signatureAlgorithm
  ⟨head ++ ja4Hash sha256 extensions.length texts.text,
    strncpy head ++ ja4Hash sha256 extensions.length texts.ndpiText⟩

end Ndpi.Source.Tls
