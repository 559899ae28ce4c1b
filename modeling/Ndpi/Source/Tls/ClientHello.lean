import Ndpi.Source.Tls.Certificate
import Ndpi.Source.Tls.Ja4

/-!
# TLS client hello messages

`protocols/tls.c:1999-2012,2773-3640` and `ndpi_utils.c:894-944`: the part of
`processClientServerHello` for a client hello, as far as it decides on the fingerprint of
the client. The payload has less than `2 ^ 16` bytes; offsets that the code keeps in 16 bits
are cut to them. Risks, browser heuristics, the lengths of TLS blocks, the groups of key
shares, and the extensions that change none of the fields modelled are left out.
Allocations succeed.
-/
namespace Ndpi.Source.Tls
open Lib
open Source.Tls.Certificate (ascii cString)

/-- The configuration, and what the code asks of the rest of the library:
`ndpi_hostname_sni_set`, whether a host name stands for a protocol, whether the risk
`NDPI_NUMERIC_IP_HOST` is set for a name, and `ndpi_sha256`. -/
structure HelloEnv where
  ja4 : Ja4Config
  tlsJa4cFingerprintEnabled : Bool
  subclassificationEnabled : Bool
  fromRdp : Bool
  hostname : Bytes → Bytes
  matchHostnameProtocol : Bytes → Bool
  numericIpRisk : Bytes → Bool
  sha256 : Bytes → Bytes

/-- Both bytes are equal and end in the digit `A`. -/
def isGrease (value : Nat) : Bool := value / 256 = value % 256 && value % 16 = 0xA

/-- The numbers that a loop `for(i=0; i<len && offset+i+1<total_len; i+=2)` reads. -/
def readBe16s (p : Bytes) (offset len : Nat) : List Nat :=
  if 0 < len ∧ offset + 1 < p.length then be16At p offset :: readBe16s p (offset + 2) (len - 2)
  else []
termination_by p.length - offset

/-- `ja.client` before anything is read. -/
def ClientInfo.empty (version : Nat) : ClientInfo :=
  ⟨version, [], [], [], [], [], [], List.replicate 256 0, 0x30, false⟩

/-- Values for an array with `MAX_NUM_JA` places; one value too many makes the fingerprint
invalid. -/
def overflows {α : Type} (list added : List α) : Bool := list.length + added.length > maxNumJa

section

variable (env : HelloEnv) (p : Bytes) (bodyOffset len : Nat)

/-- A server_name extension. -/
def clientServerName (flow : HelloFlow) : HelloFlow :=
  if bodyOffset + 4 < p.length then
    let nameLen := be16At p (bodyOffset + 3)
    if bodyOffset + 5 + nameLen ≤ p.length then
      let sni := env.hostname ((p.drop (bodyOffset + 5)).take nameLen)
      let detected := flow.subprotocolDetected ||
        (env.subclassificationEnabled && !env.fromRdp && env.matchHostnameProtocol sni)
      { flow with
        hostServerName := sni
        subprotocolDetected := detected
        numericIpHost := flow.numericIpHost || (!detected && env.numericIpRisk sni) }
    else flow
  else flow

/-- A supported_groups extension. `extension_len - 2` is an unsigned 32-bit number. -/
def clientGroups (ja : ClientInfo) : ClientInfo :=
  let sOffset := wrap16 (bodyOffset + 2)
  if sOffset + len ≤ p.length + 2 then
    let groups := (readBe16s p sOffset (sub32 len 2)).filter fun group => !isGrease group
    { ja with
      ellipticCurveGroup := groups.foldl pushJa ja.ellipticCurveGroup
      invalidJa := ja.invalidJa || overflows ja.ellipticCurveGroup groups }
  else { ja with invalidJa := true }

/-- An ec_point_formats extension. -/
def clientPointFormats (ja : ClientInfo) : ClientInfo :=
  let sOffset := wrap16 (bodyOffset + 1)
  if sOffset + len ≤ p.length + 1 then
    let formats := (p.drop sOffset).take (sub32 len 1)
    { ja with
      ellipticCurvePointFormat := formats.foldl pushJa ja.ellipticCurvePointFormat
      invalidJa := ja.invalidJa || overflows ja.ellipticCurvePointFormat formats }
  else { ja with invalidJa := true }

/-- A signature_algorithms extension; at most 127 bytes of its list are read. -/
def clientSignatureAlgorithms (ja : ClientInfo) : ClientInfo :=
  { ja with signatureAlgorithm := readBe16s p (bodyOffset + 2) (min 127 (be16At p bodyOffset)) }

/-- The loop over the names of an ALPN list: they are joined with commas as long as they end
before `limit` and fit into a buffer of 256 bytes. -/
def joinAlpn (totAlpnLen limit sOffset : Nat) (text : Bytes) : Bytes :=
  if sOffset < totAlpnLen ∧ sOffset < p.length then
    let alpnLen := (byteAt p sOffset).toNat
    if sOffset + 1 + alpnLen ≤ limit ∧ text.length + alpnLen + 1 < 255 then
      joinAlpn totAlpnLen limit (sOffset + 1 + alpnLen)
        ((if text = [] then [] else text ++ [0x2C]) ++ (p.drop (sOffset + 1)).take alpnLen)
    else text
  else text
termination_by p.length - sOffset

/-- The last character before the first semicolon or comma, or `'0'`. -/
def alpnOriginalLast (text : Bytes) : UInt8 :=
  (text.takeWhile fun c => c ≠ 0x3B ∧ c ≠ 0x2C).getLast?.getD 0x30

/-- The commas of the C string at the start are replaced. -/
def dashes (alpn : Bytes) : Bytes :=
  (alpn.takeWhile (· ≠ 0)).map (fun c => if c = 0x2C then 0x2D else c) ++ alpn.dropWhile (· ≠ 0)

/-- The names are copied to `ja.client.alpn`, where the last character gives way to a NUL. -/
def storeAlpn (alpn text : Bytes) : Bytes :=
  let text := text.take alpn.length
  dashes (text.take (text.length - 1) ++ (if text = [] then [] else [0]) ++ alpn.drop text.length)

/-- `tls_subclassify_by_alpn`. -/
def subclassifiesAlpn (alpns : Bytes) : Bool :=
  alpns.length > 8 && (ascii "anydesk/").isPrefixOf alpns

/-- The names that are advertised are noted once, and may give the protocol of the flow. -/
def noteAlpn (text : Bytes) (flow : HelloFlow) : HelloFlow :=
  match flow.advertisedAlpns with
  | some _ => flow
  | none => { flow with
      advertisedAlpns := some (cString text)
      subprotocolDetected := flow.subprotocolDetected ||
        (env.subclassificationEnabled && subclassifiesAlpn (cString text)) }

/-- The text of an application_layer_protocol_negotiation extension. -/
def clientAlpnText : Bytes :=
  let totAlpnLen := wrap16 (be16At p bodyOffset + (bodyOffset + 2))
  joinAlpn p totAlpnLen (min totAlpnLen p.length) (bodyOffset + 2) []

def clientAlpn (ja : ClientInfo) (flow : HelloFlow) : ClientInfo × HelloFlow :=
  let text := clientAlpnText p bodyOffset
  ({ ja with
      alpn := storeAlpn ja.alpn text
      alpnOriginalLast := alpnOriginalLast (text.take ja.alpn.length) },
    noteAlpn env text flow)

/-- `ndpi_ssl_version2str`. -/
def sslVersion2str (version : Nat) : Bytes :=
  if version = 0x0300 then ascii "SSLv3"
  else if version = 0x0301 then ascii "TLSv1"
  else if version = 0x0302 then ascii "TLSv1.1"
  else if version = 0x0303 then ascii "TLSv1.2"
  else if version = 0x0304 then ascii "TLSv1.3"
  else if version = 0xFB1A then ascii "TLSv1.3 (Fizz)"
  else if version = 0xFEFF then ascii "DTLSv1.0"
  else if version = 0xFEFD then ascii "DTLSv1.2"
  else if version = 0xFEFC then ascii "DTLSv1.3"
  else if isGreaseVersion version then ascii "GREASE"
  else if 0x7f00 ≤ version ∧ version ≤ 0x7fff then ascii "TLSv1.3 (draft)"
  else ascii "TLS (" ++ (hex4 version).map (fun c => if 0x61 ≤ c then c - 0x20 else c) ++ ascii ")"

/-- One version of the list; `version_str` has 256 bytes. -/
def noteVersion (noted : Nat × List Nat) (version : Nat) : Nat × List Nat :=
  if noted.1 + 8 < 256 then
    (noted.1 + (if noted.1 > 0 then 1 else 0) + (sslVersion2str version).length,
      pushJa noted.2 version)
  else noted

/-- A supported_versions extension. -/
def clientVersions (ja : ClientInfo) : ClientInfo :=
  let versionLen := (byteAt p bodyOffset).toNat
  if versionLen + 1 = len then
    let versions := readBe16s p (bodyOffset + 1) (versionLen - 1)
    { ja with supportedVersion := (versions.foldl noteVersion (0, ja.supportedVersion)).2 }
  else ja

/-- What is done with an extension whose body begins at `bodyOffset`. -/
def clientExtension (id : Nat) (ja : ClientInfo) (flow : HelloFlow) : ClientInfo × HelloFlow :=
  if id = 0 then (ja, clientServerName env p bodyOffset flow)
  else if id = 10 then (clientGroups p bodyOffset len ja, flow)
  else if id = 11 then (clientPointFormats p bodyOffset len ja, flow)
  else if id = 13 ∧ bodyOffset + 1 < p.length then (clientSignatureAlgorithms p bodyOffset ja, flow)
  else if id = 16 ∧ bodyOffset + 1 < p.length then clientAlpn env p bodyOffset ja flow
  else if id = 43 ∧ bodyOffset < p.length then (clientVersions p bodyOffset len ja, flow)
  else (ja, flow)

end

/-- An extension that is not GREASE goes into the list. -/
def noteExtension (id : Nat) (ja : ClientInfo) : ClientInfo :=
  if isGrease id then ja
  else { ja with
    tlsExtension := pushJa ja.tlsExtension id
    invalidJa := ja.invalidJa || overflows ja.tlsExtension [id] }

structure ClientWalk where
  extensionOffset : Nat
  ja : ClientInfo
  flow : HelloFlow

/-- One iteration of the loop over the extensions, which begin at `offset`. -/
def clientTurn (env : HelloEnv) (p : Bytes) (offset extensionsLen : Nat) (s : ClientWalk) :
    Turn ClientWalk ClientWalk :=
  let id := be16At p (offset + s.extensionOffset)
  let len := be16At p (offset + s.extensionOffset + 2)
  if ¬(s.extensionOffset < extensionsLen ∧ offset + s.extensionOffset + 4 ≤ p.length) then .leave s
  else if offset + 4 + len > p.length then .leave s
  else
    let (ja, flow) := clientExtension env p (offset + s.extensionOffset + 4) len id
      (noteExtension id s.ja) s.flow
    .stay ⟨s.extensionOffset + (4 + len), ja, flow⟩

/-- What the function returns, with the flow and the fingerprint if one was computed. -/
structure HelloResult where
  returned : Nat
  flow : HelloFlow
  ja4 : Option Ja4

/-- `return(0)`. -/
def HelloResult.notFound (flow : HelloFlow) : HelloResult := ⟨0, flow, none⟩

/-- The fingerprint is computed, and the function returns 2. -/
def HelloResult.computed (env : HelloEnv) (ctx : HelloContext) (flow : HelloFlow)
    (ja : ClientInfo) : HelloResult :=
  ⟨2, flow, if env.tlsJa4cFingerprintEnabled then
    some (ndpiComputeJa4 env.sha256 env.ja4 ctx flow ja) else none⟩

/-- The length of the cookie, which only DTLS has; none if it does not fit. -/
def clientCookieLen (ctx : HelloContext) (p : Bytes) (start : HelloStart) : Option Nat :=
  if ctx.isDtls then
    let cookieLen := (byteAt p (start.baseOffset + start.sessionIdLen + 1)).toNat
    if start.sessionIdLen + start.baseOffset + cookieLen + 4 > p.length then none
    else some (cookieLen + 1)
  else some 0

/-- The cipher suites; GREASE is skipped. -/
def clientCiphers (p : Bytes) (cipherOffset cipherLen : Nat) (ja : ClientInfo) : ClientInfo :=
  if cipherOffset + cipherLen ≤ p.length - 1 then
    let ciphers := (readBe16s p cipherOffset cipherLen).filter fun cipher => !isGrease cipher
    { ja with
      cipher := ciphers.foldl pushJa ja.cipher
      invalidJa := ja.invalidJa || overflows ja.cipher ciphers }
  else { ja with invalidJa := true }

/-- The part behind the cipher suites, which begins at `offset` with the length of the
compression methods. -/
def clientRest (env : HelloEnv) (ctx : HelloContext) (flow : HelloFlow) (p : Bytes) (offset : Nat)
    (ja : ClientInfo) : HelloResult :=
  if offset < p.length then
    let offset := wrap16 (offset + 1 + (byteAt p offset).toNat)
    if offset + 1 < p.length then
      let extensionsLen := be16At p offset
      let offset := offset + 2
      if extensionsLen + offset ≤ p.length then
        match loop (clientTurn env p offset extensionsLen) (p.length + 1) ⟨0, ja, flow⟩ with
        | none => .notFound flow
        | some s =>
          if s.ja.invalidJa then ⟨2, s.flow, none⟩ else .computed env ctx s.flow s.ja
      else .notFound flow
    else if offset = p.length then .computed env ctx flow ja
    else .notFound flow
  else .notFound flow

/-- `processClientServerHello` for a client hello. The cookie counts with the byte of its
length. -/
def processClientHello (env : HelloEnv) (ctx : HelloContext) (flow : HelloFlow) (p : Bytes) :
    HelloResult :=
  match helloStart ctx p with
  | none => .notFound flow
  | some start =>
    if start.handshakeType ≠ 0x01 then .notFound flow
    else if start.sessionIdLen + start.baseOffset + 3 > p.length then .notFound flow
    else
      match clientCookieLen ctx p start with
      | none => .notFound flow
      | some cookie =>
        let cipherLenOffset := start.baseOffset + start.sessionIdLen + cookie + 1
        let cipherLen := be16At p cipherLenOffset
        let ja := clientCiphers p (cipherLenOffset + 2) cipherLen (.empty start.tlsVersion)
        clientRest env ctx flow p (wrap16 (cipherLenOffset + 2 + cipherLen)) ja

end Ndpi.Source.Tls
