import Ndpi.Source.Tls.Dtls

/-!
# TLS hello messages

`protocols/tls.c:2477-2721`: the beginning of `processClientServerHello`, which both kinds
of hello share, and the part for a server hello. The payload has less than `2 ^ 16` bytes.
Risks, the text of the negotiated ALPN and the fields that are copied to the flow are left
out.
-/
namespace Ndpi.Source.Tls
open Lib

/-- What the function reads of the packet and the flow: `packet->udp`,
`flow->stun.maybe_dtls` and the version of QUIC, or 0. -/
structure HelloContext where
  udp : Bool
  maybeDtls : Bool
  quicVersion : UInt32

def HelloContext.isQuic (ctx : HelloContext) : Bool := ctx.quicVersion ≠ 0

def HelloContext.isDtls (ctx : HelloContext) : Bool := (ctx.udp && !ctx.isQuic) || ctx.maybeDtls

/-- The locals that are set before the kinds of hello are told apart. -/
structure HelloStart where
  handshakeType : UInt8
  baseOffset : Nat
  sessionIdLen : Nat
  tlsVersion : Nat

/-- The checks at the beginning; without a value the function returns 0. -/
def helloStart (ctx : HelloContext) (p : Bytes) : Option HelloStart :=
  let baseOffset := if ctx.isDtls then 46 else 38
  let versionOffset := if ctx.isDtls then 12 else 4
  if wrap16 (be24At p 1) > p.length ∨ byteAt p 1 ≠ 0 then none
  else if p.length ≤ 4 then none
  else if baseOffset ≥ p.length ∨ versionOffset + 1 ≥ p.length then none
  else some ⟨byteAt p 0, baseOffset, (byteAt p baseOffset).toNat, be16At p versionOffset⟩

/-- `MAX_NUM_JA`. -/
def maxNumJa : Nat := 128

/-- A value is added to an array if there is room in it. -/
def pushJa {α : Type} (list : List α) (x : α) : List α :=
  if list.length < maxNumJa then list ++ [x] else list

/-- `ndpi_tls_server_info`. -/
structure ServerInfo where
  tlsHandshakeVersion : Nat
  cipher : Nat
  tlsExtension : List Nat
  tlsSupportedVersion : Nat
  ellipticCurvePointFormat : List UInt8

/-- The locals `i` and `offset` of the loop over the extensions, and `ja.server`. -/
structure ServerWalk where
  i : Nat
  offset : Nat
  ja : ServerInfo

/-- `i += 4 + extension_len, offset += 4 + extension_len`. -/
def ServerWalk.advance (s : ServerWalk) (len : Nat) : ServerWalk :=
  { s with i := s.i + (4 + len), offset := s.offset + (4 + len) }

/-- An ec_point_formats extension. Its loop has the same counter `i` as the loop over the
extensions; `extension_len - 1` is an unsigned 32-bit number. -/
def serverPointFormats (p : Bytes) (len : Nat) (s : ServerWalk) : ServerWalk :=
  let sOffset := wrap16 (s.offset + 4 + 1)
  if sub32 (sOffset + len) 1 ≤ p.length then
    let count := min (sub32 len 1) (p.length - sOffset)
    { s with
      i := count
      ja := { s.ja with ellipticCurvePointFormat :=
        ((p.drop sOffset).take count).foldl pushJa s.ja.ellipticCurvePointFormat } }
  else s

/-- The length of an ALPN list that does not end in the payload; the sum has 16 bits. -/
def serverAlpnTooLong (p : Bytes) (offset : Nat) : Bool :=
  wrap16 (be16At p (offset + 4) + (offset + 4 + 2)) > p.length

/-- What is done with an extension. The loop is left without a value by `return 0`. -/
def serverExtension (p : Bytes) (id len : Nat) (s : ServerWalk) :
    Turn ServerWalk (Option ServerInfo) :=
  if id = 43 then
    if len ≥ 2 then
      .stay ({ s with ja := { s.ja with
        tlsSupportedVersion := be16At p (s.offset + 4) } }.advance len)
    else .stay (s.advance len)
  else if id = 16 ∧ s.offset + 6 < p.length then
    if serverAlpnTooLong p s.offset then .leave none else .stay (s.advance len)
  else if id = 11 then .stay ((serverPointFormats p len s).advance len)
  else .stay (s.advance len)

/-- One iteration of the loop over the extensions. -/
def serverTurn (p : Bytes) (totExtensionLen : Nat) (s : ServerWalk) :
    Turn ServerWalk (Option ServerInfo) :=
  let id := be16At p s.offset
  let len := be16At p (s.offset + 2)
  if ¬s.i < totExtensionLen then .leave (some s.ja)
  else if s.offset + 4 > p.length then .leave (some s.ja)
  else if s.offset + 4 + len > p.length then .leave (some s.ja)
  else
    serverExtension p id len
      { s with ja := { s.ja with tlsExtension := pushJa s.ja.tlsExtension id } }

/-- `processClientServerHello` for a server hello: the value of `ja.server` after the
loop, if the function gets there. -/
def processServerHello (ctx : HelloContext) (p : Bytes) : Option ServerInfo :=
  match helloStart ctx p with
  | none => none
  | some start =>
    if start.handshakeType ≠ 0x02 then none
    else
      let offset :=
        if ctx.udp ∨ start.tlsVersion < 0x7F15 then start.baseOffset + (start.sessionIdLen + 1)
        else start.baseOffset
      if offset + 3 > p.length then none
      else
        let ja : ServerInfo := ⟨start.tlsVersion, be16At p offset, [], 0, []⟩
        let offset := offset + 3
        let totExtensionLen := if offset + 1 < p.length then be16At p offset else 0
        (loop (serverTurn p totExtensionLen) (p.length + 1) ⟨0, offset + 2, ja⟩).join

end Ndpi.Source.Tls
