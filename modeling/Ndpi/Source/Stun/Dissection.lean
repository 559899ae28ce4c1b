import Ndpi.Source.Stun.Endpoints
import Ndpi.Source.Tls.Certificate

/-!
# STUN dissection

`protocols/stun.c:92-131,356-1062,1147-1263` and `protocols/rtp.c:41-46,213-269`: `is_stun`
and `stun_search_again`, which call each other for the data in DATA attributes, TURN
channels and Microsoft multiplexed TURN messages. `packet->payload` is a window of the
payload of the packet; the indices read are those of this payload. Where the code stops a
comparison early, all of the bytes to compare count as read. The reads of the TLS
dissector, to which `switch_to_tls` hands a packet, are not in this model.
-/
namespace Ndpi.Source.Stun
open Lib Source.Cache Source.Tls
open Source.Tls.Certificate (ascii)

/-- `packet->payload` and `payload_packet_len`. -/
structure Window where
  base : Nat
  len : Nat
  deriving DecidableEq, Repr

/-- `packet->tcp` or `packet->udp`, with the source port in host order. -/
inductive Transport where
  | tcp
  | udp (source : UInt16)
  deriving DecidableEq, Repr

/-- What does not change while a packet is dissected. -/
structure PacketInfo where
  transport : Transport
  direction : Fin 2
  fromClient : Bool

def PacketInfo.isTcp (info : PacketInfo) : Bool := info.transport = .tcp

/-- The addresses that are kept of a flow. -/
inductive AddressField where
  | mapped
  | peer
  | relayed
  | responseOrigin
  | other
  deriving DecidableEq, Repr

structure StunConfig where
  addressEnabled : AddressField → Bool
  opportunisticTlsEnabled : Bool
  monitoringEnabled : Bool
  maxPacketsExtraDissection : UInt8

/-- The fields of a flow that the dissector uses. `monitoring` is its state,
`extraPacketsFunc` whether there is such a function. -/
structure StunFlow where
  stack0 : UInt16
  stack1 : UInt16
  ends : FlowEnds
  packetCounter : Nat
  nowSec : UInt32
  hostServerName : Bytes
  monitoring : Bool
  multimediaTypes : UInt8
  maxExtraPacketsToCheck : UInt8
  numExtraPacketsChecked : UInt8
  extraPacketsFunc : Bool
  category : UInt16
  certificateProcessed : Bool
  monit : Option (AddressField → AddressPort)
  maybeDtls : Bool
  rtcpSeen : Bool
  isTurn : Bool
  isClientControlling : Bool
  addresses : AddressField → AddressPort
  numXorRelayedAddresses : UInt8
  numXorMappedAddresses : UInt8
  numNonStunPkt : UInt8
  nonStunPktLen : Vector UInt8 2
  rtpCounters : Vector UInt16 2
  tStart : UInt32
  tEnd : UInt32

/-- What the dissector asks of the rest of the library: the allocation of `monit`,
`ndpi_hostname_sni_set`, `signal_search_into_cache`, `ndpi_set_detected_protocol`,
`get_proto_category`, `switch_to_tls` and `rtp_get_stream_type`. -/
structure StunEnv where
  monitGranted : Bool
  hostname : Bytes → Bytes
  signalInCache : StunFlow → Bool
  setDetectedProtocol : StunFlow → UInt16 → UInt16 → StunFlow
  protoCategory : UInt16 → UInt16 → UInt16
  switchToTls : Window → Bool → StunFlow → StunFlow
  streamType : UInt8 → UInt16 → UInt8

/-- The packet, the flow and the cache. -/
structure StunState (numEntries : UInt32) where
  packet : Window
  flow : StunFlow
  cache : Option (LruCache numEntries)

def StunFlow.isReal (flow : StunFlow) : Bool := isSubclassificationReal flow.stack0 flow.stack1

def isNewSubclassificationBetter (flow : StunFlow) (newAppProto : UInt16) : Bool :=
  if flow.isReal ∧ newAppProto = Protocol.unknown then false else newAppProto ≠ flow.stack0

/-- `__get_master`. -/
def getMaster (flow : StunFlow) : UInt16 :=
  if flow.stack1 ≠ Protocol.unknown then flow.stack1
  else if flow.stack0 ≠ Protocol.unknown ∧ flow.stack0 ≠ Protocol.telegram then flow.stack0
  else Protocol.stun

/-- The first lengths of packets from port 3478 that do not look like STUN. -/
def noteNonStunPacket (info : PacketInfo) (p : Bytes) (w : Window) (flow : StunFlow) :
    Scan StunFlow := do
  if info.transport = .udp 3478 ∧ w.len > 0 then
    let first ← Scan.byte p w.base
    if first ≠ 0 ∧ first ≠ 1 ∧ flow.numNonStunPkt < 2 then
      pure { flow with
        nonStunPktLen := flow.nonStunPktLen.setIfInBounds flow.numNonStunPkt.toNat
          (UInt8.ofNat w.len)
        numNonStunPkt := flow.numNonStunPkt + 1 }
    else pure flow
  else pure flow

/-- A large packet of a Telegram call that is not DTLS is video. -/
def noteLargePacket (p : Bytes) (w : Window) (flow : StunFlow) : Scan StunFlow := do
  if w.len > 699 ∧ flow.stack0 = Protocol.telegramVoip then
    let b0 ← Scan.byte p w.base
    let b1 ← Scan.byte p (w.base + 1)
    let b2 ← Scan.byte p (w.base + 2)
    if b0 = 0x16 ∧ b1 = 0xfe ∧ (b2 = 0xff ∨ b2 = 0xfd) then pure flow
    else pure { flow with multimediaTypes := flow.multimediaTypes ||| 2 }
  else pure flow

/-- Each of these addresses is known or not wanted. -/
def addressesKnown (cfg : StunConfig) (flow : StunFlow) (fields : List AddressField) : Bool :=
  fields.all fun field => (flow.addresses field).port ≠ 0 || !cfg.addressEnabled field

/-- The dissection ends, or goes over to monitoring. -/
def enough (cfg : StunConfig) (flow : StunFlow) : Bool × StunFlow :=
  if cfg.monitoringEnabled then (true, { flow with monitoring := true }) else (false, flow)

/-- The part of `keep_extra_dissection` that does not look at the packet. -/
def keepDecision (cfg : StunConfig) (flow : StunFlow) : Bool × StunFlow :=
  if flow.monitoring then (true, flow)
  else if flow.numExtraPacketsChecked.toNat + 1 = flow.maxExtraPacketsToCheck.toNat ∧
      cfg.monitoringEnabled then
    (true, { flow with monitoring := true })
  else if !flow.isReal then (true, flow)
  else if cfg.monitoringEnabled ∧ flow.stack1 ≠ Protocol.srtp ∧ flow.stack1 ≠ Protocol.dtls then
    (true, flow)
  else if flow.stack0 = Protocol.telegramVoip ∧ cfg.addressEnabled .peer then (true, flow)
  else if addressesKnown cfg flow [.mapped, .peer, .relayed, .responseOrigin, .other] then
    enough cfg flow
  else if flow.stack0 = Protocol.whatsAppCall ∧ flow.stack1 = Protocol.srtp ∧
      addressesKnown cfg flow [.mapped, .relayed] then
    enough cfg flow
  else if flow.stack0 = Protocol.zoom then enough cfg flow
  else (true, flow)

def keepExtraDissection {numEntries : UInt32} (cfg : StunConfig) (info : PacketInfo) (p : Bytes)
    (st : StunState numEntries) : Scan (Bool × StunState numEntries) := do
  let flow ← noteNonStunPacket info p st.packet st.flow
  let flow ← noteLargePacket p st.packet flow
  let (keep, flow) := keepDecision cfg flow
  pure (keep, { st with flow := flow })

section

/-- One of the ports that are used by Google calls. -/
def isGooglePort (port : UInt16) : Bool :=
  let port := (htons port).toNat
  (19302 ≤ port && port ≤ 19309) || port = 3478

/-- 2001:4860:4864:5::/64 and 2001:4860:4864:6::/64. -/
def isGoogleNet6 (ip : Ipv6) : Bool :=
  ip.bytes.take 8 = [0x20, 0x01, 0x48, 0x60, 0x48, 0x64, 0x00, 0x05] ||
    ip.bytes.take 8 = [0x20, 0x01, 0x48, 0x60, 0x48, 0x64, 0x00, 0x06]

/-- 74.125.250.0/24 and 142.250.82.0/24. -/
def isGoogleNet4 (ip : UInt32) : Bool :=
  htonl ip &&& 0xFFFFFF00 = 0x4a7dfa00 || htonl ip &&& 0xFFFFFF00 = 0x8efa5200

def isGoogleFlow (ends : FlowEnds) : Bool :=
  (isGooglePort ends.cPort || isGooglePort ends.sPort) &&
    match ends.addresses with
    | .v6 client server => isGoogleNet6 client || isGoogleNet6 server
    | .v4 client server => isGoogleNet4 client || isGoogleNet4 server

def isRtpMaster (master : UInt16) : Bool := master = Protocol.rtp || master = Protocol.rtcp

/-- The application and the master that the cache gives. -/
def classifyByCache {numEntries : UInt32} (flow : StunFlow)
    (cache : Option (LruCache numEntries)) (app master : UInt16) :
    UInt16 × UInt16 × Option (LruCache numEntries) :=
  if isSubclassificationRealByProto app then (app, master, cache)
  else
    let (new, cache) := searchIntoCache cache flow.ends flow.nowSec
    if new ≠ Protocol.unknown then
      (new, if app = Protocol.rtp || isRtpMaster master then Protocol.srtp else master, cache)
    else (app, master, cache)

/-- For a flow that was RTP or RTCP before. -/
def classifyFromRtp (app master : UInt16) : UInt16 × UInt16 :=
  if isRtpMaster master then
    if app = Protocol.unknown then (Protocol.rtp, Protocol.stun) else (app, Protocol.srtp)
  else (app, master)

variable {numEntries : UInt32} (cfg : StunConfig) (env : StunEnv) (info : PacketInfo) (p : Bytes)

/-- `switch_extra_dissection_to_stun`. -/
def switchExtraDissectionToStun (st : StunState numEntries) : Scan (StunState numEntries) := do
  if st.flow.extraPacketsFunc then pure st
  else
    let (keep, st) ← keepExtraDissection cfg info p st
    if keep then
      pure { st with flow := { st.flow with
        maxExtraPacketsToCheck := cfg.maxPacketsExtraDissection, extraPacketsFunc := true } }
    else pure st

/-- The classification that `ndpi_int_stun_add_connection` sets. -/
def setConnection (app master category : UInt16) (flow : StunFlow) : StunFlow :=
  let flow := if category ≠ 0 then { flow with category := category } else flow
  if flow.stack0 = Protocol.unknown ∨ app ≠ Protocol.unknown then
    let flow := env.setDetectedProtocol flow app master
    if flow.extraPacketsFunc then { flow with category := env.protoCategory master app } else flow
  else flow

/-- `ndpi_int_stun_add_connection`. -/
def stunAddConnection (app master category : UInt16) (st : StunState numEntries) :
    Scan (StunState numEntries) := do
  if st.flow.monitoring then pure st
  else
    let app := if app = Protocol.unknown ∧ isGoogleFlow st.flow.ends then Protocol.googleCall
      else app
    let (app, master, cache) := classifyByCache st.flow st.cache app master
    let (app, master) := classifyFromRtp app master
    let cache := if isSubclassificationRealByProto app then
        addToCache cache st.flow.ends app st.flow.nowSec
      else cache
    switchExtraDissectionToStun cfg info p
      { st with flow := setConnection env app master category st.flow, cache := cache }

end

/-- The first fields of a STUN message. -/
structure StunHeader where
  msgType : Nat
  msgLen : Nat
  transaction : Transaction

def stunHdrLen : Nat := 20

def stunMagic : UInt32 := 0x2112A442

/-- The message types of WhatsApp. -/
def whatsAppTypes : List Nat := [0x0800, 0x0801, 0x0802, 0x0804, 0x0805]

/-- The message types of classic STUN. -/
def classicTypes : List Nat :=
  [0x0001, 0x0101, 0x0111, 0x0002, 0x0102, 0x0112, 0x0003, 0x0103, 0x0113, 0x0004, 0x0104, 0x0114,
    0x0115, 0x0006, 0x0106, 0x0116]

/-- The methods of TURN. -/
def turnMethods : List Nat := [3, 4, 6, 7, 5, 8, 9, 10, 11, 12]

def textAt (p : Bytes) (offset : Nat) (text : Bytes) : Scan Bool := do
  let bytes ← Scan.ofAccess ((⟨p, []⟩ : Memory).fetch offset text.length)
  pure (bytes = text)

/-- `"RSP/"` and, at offset 7, `" STUN_"`. -/
def isLegacyStun (p : Bytes) (w : Window) : Scan Bool := do
  let first ← textAt p w.base [0x52, 0x53, 0x50, 0x2F]
  if first then textAt p (w.base + 7) [0x20, 0x53, 0x54, 0x55, 0x4E, 0x5F] else pure false

/-- The framing of STUN over TCP. -/
def skipTcpFraming (info : PacketInfo) (p : Bytes) (w : Window) : Scan Window := do
  if info.isTcp ∧ w.len ≥ stunHdrLen + 2 then
    let len ← Scan.be16 p w.base
    if len + 2 = w.len then pure ⟨w.base + 2, w.len - 2⟩ else pure w
  else pure w

/-- The header of Microsoft multiplexed TURN messages. -/
def skipMultiplexing (p : Bytes) (w : Window) : Scan Window := do
  if w.len ≥ stunHdrLen + 12 then
    let type ← Scan.be16 p w.base
    let len ← Scan.be16 p (w.base + 2)
    if type = 0xFF10 ∧ len + 4 = w.len then pure ⟨w.base + 12, w.len - 12⟩ else pure w
  else pure w

def readHeader (p : Bytes) (w : Window) : Scan StunHeader := do
  let msgType ← Scan.be16 p w.base
  let msgLen ← Scan.be16 p (w.base + 2)
  let magicCookie ← Scan.be32 p (w.base + 4)
  let id0 ← Scan.be32 p (w.base + 8)
  let id1 ← Scan.be32 p (w.base + 12)
  let id2 ← Scan.be32 p (w.base + 16)
  pure ⟨msgType, msgLen, ⟨UInt32.ofNat magicCookie, UInt32.ofNat id0, UInt32.ofNat id1,
    UInt32.ofNat id2⟩⟩

/-- The first message; over TCP there may be others behind it. -/
def firstMessage (info : PacketInfo) (w : Window) (h : StunHeader) : Window :=
  if info.isTcp then ⟨w.base, h.msgLen + stunHdrLen⟩ else w

/-- The checks of the header: what `is_stun` returns if one fails, or else the message. -/
def checkHeader (info : PacketInfo) (w : Window) (h : StunHeader) : Except Int Window :=
  if info.isTcp ∧ h.transaction.magicCookie ≠ stunMagic then .error 0
  else if info.isTcp ∧ h.msgLen + stunHdrLen > w.len then .error 0
  else if h.msgType = 0 ∨ h.msgLen + stunHdrLen ≠ (firstMessage info w h).len then .error (-1)
  else if h.msgType &&& 0x3EEF > 0x000B ∧ h.msgType ∉ whatsAppTypes then .error (-1)
  else .ok (firstMessage info w h)

/-- The length of an attribute with its padding, in 16 bits. -/
def realLen (len : Nat) : Nat := wrap16 ((len + 3) / 4 * 4)

/-- One iteration of the loop over the attributes of classic STUN. -/
def classicTurn (p : Bytes) (w : Window) (off : Nat) : Scan (Turn Nat Nat) := do
  if off + 4 < w.len then
    let len ← Scan.be16 p (w.base + off + 2)
    pure (.stay (off + (4 + realLen len)))
  else pure (.leave off)

/-- Without the magic cookie the attributes must fill the message. -/
def looksClassic (fuel : Nat) (p : Bytes) (w : Window) (h : StunHeader) : Scan Bool := do
  if h.transaction.magicCookie = stunMagic then pure true
  else if h.msgType ∉ classicTypes then pure false
  else
    let off ← Scan.untilLeave (classicTurn p w) fuel stunHdrLen
    pure (off = w.len)

def method (msgType : Nat) : Nat :=
  (msgType &&& 0x000F) ||| ((msgType &&& 0x00E0) >>> 1) ||| ((msgType &&& 0x3E00) >>> 2)

section

/-- What an attribute is used for. -/
inductive AttributeKind where
  | address (field : AddressField)
  | xorPeerAddress
  | xorMappedAddress
  | xorRelayedAddress
  | zoom
  | application (proto : UInt16)
  | realm
  | iceControlled
  | iceControlling
  | data
  | unknown
  deriving DecidableEq, Repr

def whatsAppAttributes : List Nat := [0x4000, 0x4001, 0x4002, 0x4003, 0x4004, 0x4007]

def teamsAttributes : List Nat :=
  [0x8054, 0x24DF, 0x3802, 0x8036, 0x8095, 0x0800, 0x8006, 0x8070, 0x8055]

def attributeKind (attr : Nat) : AttributeKind :=
  if attr = 0x0001 then .address .mapped
  else if attr = 0x802b then .address .responseOrigin
  else if attr = 0x802c then .address .other
  else if attr = 0x0012 then .xorPeerAddress
  else if attr = 0x0101 ∨ attr = 0x0103 then .zoom
  else if attr ∈ whatsAppAttributes then .application Protocol.whatsAppCall
  else if attr = 0x0014 then .realm
  else if attr ∈ teamsAttributes then .application Protocol.msTeamsCall
  else if attr = 0x8029 then .iceControlled
  else if attr = 0x802A then .iceControlling
  else if attr = 0xFF03 then .application Protocol.googleCall
  else if attr = 0x0013 then .data
  else if attr = 0x0020 then .xorMappedAddress
  else if attr = 0x0016 then .xorRelayedAddress
  else .unknown

/-- An address that was found is kept if it is the first one, and in `monit`. -/
def noteAddress (field : AddressField) (found : Option AddressPort) (flow : StunFlow) : StunFlow :=
  match found with
  | none => flow
  | some found => { flow with
      addresses := Function.update flow.addresses field ((flow.addresses field).keepFirst found)
      monit := flow.monit.map fun monit => Function.update monit field found }

def contains (name : Bytes) (text : String) : Bool := (firstOccurrence (ascii text) name).isSome

/-- The application and the category for the name in a REALM attribute. -/
def classifyRealm (env : StunEnv) (flow : StunFlow) (appProto category : UInt16) :
    UInt16 × UInt16 :=
  let name := flow.hostServerName
  if contains name "google.com" then (Protocol.googleCall, category)
  else if contains name "whispersystems.org" ∨ contains name "signal.org" then
    (Protocol.signalVoip, category)
  else if contains name "facebook" then (Protocol.facebookVoip, category)
  else if contains name "stripcdn.com" then (appProto, 34)
  else if contains name "telegram" then (Protocol.telegramVoip, category)
  else if contains name "viber" then (Protocol.viberVoip, category)
  else if contains name "turn.cloudflare.com" then
    (if env.signalInCache flow then Protocol.signalVoip else appProto, category)
  else (appProto, category)

/-- `*app_proto` and `*category`. -/
structure StunVerdict where
  appProto : UInt16
  category : UInt16

structure AttributeWalk (numEntries : UInt32) where
  off : Nat
  verdict : StunVerdict
  st : StunState numEntries

variable {numEntries : UInt32}

/-- A call of `stun_search_again` on a part of the payload; `packet->payload` and its length
are put back afterwards. -/
def searchWithin (again : StunState numEntries → Scan (Bool × StunState numEntries)) (w : Window)
    (st : StunState numEntries) : Scan (StunState numEntries) := do
  let (_, after) ← again { st with packet := w }
  pure { after with packet := st.packet }

variable (cfg : StunConfig) (env : StunEnv) (info : PacketInfo) (p : Bytes)

/-- A REALM attribute, whose value has `len` bytes, is the name of the server if there is
none yet. -/
def realmAttribute (w : Window) (off len : Nat) (verdict : StunVerdict)
    (st : StunState numEntries) : Scan (StunVerdict × StunState numEntries) := do
  if st.flow.hostServerName = [] then
    let value ← Scan.ofAccess
      ((⟨p, []⟩ : Memory).fetch (w.base + off + 4) (min len (w.len - off - 4)))
    let name := env.hostname value
    let flow := { st.flow with hostServerName := name }
    if 0x3F ∈ name then pure (verdict, { st with flow := { flow with hostServerName := [] } })
    else
      let (appProto, category) := classifyRealm env flow verdict.appProto verdict.category
      pure (⟨appProto, category⟩, { st with flow := flow })
  else pure (verdict, st)

/-- What an attribute does; `again` is `stun_search_again`. -/
def handleAttribute (again : StunState numEntries → Scan (Bool × StunState numEntries))
    (t : Transaction) (w : Window) (off len : Nat) (kind : AttributeKind) (verdict : StunVerdict)
    (st : StunState numEntries) : Scan (StunVerdict × StunState numEntries) := do
  match kind with
  | .address field =>
    if cfg.addressEnabled field then
      let found ← decodeAddress p w.base w.len off (realLen len)
      pure (verdict, { st with flow := noteAddress field found st.flow })
    else pure (verdict, st)
  | .xorPeerAddress =>
    if cfg.addressEnabled .peer then
      let found ← decodeXorAddress p w.base w.len off (realLen len) t
      let cache := match found with
        | none => st.cache
        | some found =>
          announcePeer st.cache st.flow.stack0 st.flow.stack1 st.flow.nowSec found
      pure (verdict, { st with flow := noteAddress .peer found st.flow, cache := cache })
    else pure (verdict, st)
  | .xorMappedAddress =>
    if cfg.addressEnabled .mapped then
      let found ← decodeXorAddress p w.base w.len off (realLen len) t
      let flow := noteAddress .mapped found st.flow
      pure (verdict, { st with
        flow := { flow with numXorMappedAddresses := flow.numXorMappedAddresses + 1 } })
    else pure (verdict, st)
  | .xorRelayedAddress =>
    if cfg.addressEnabled .relayed then
      let found ← decodeXorAddress p w.base w.len off (realLen len) t
      let flow := noteAddress .relayed found st.flow
      pure (verdict, { st with
        flow := { flow with numXorRelayedAddresses := flow.numXorRelayedAddresses + 1 } })
    else pure (verdict, st)
  | .zoom => pure ({ verdict with appProto := Protocol.zoom }, st)
  | .application proto => pure ({ verdict with appProto := proto }, st)
  | .realm => realmAttribute env p w off len verdict st
  | .iceControlled =>
    pure (verdict, { st with flow := { st.flow with isClientControlling := !info.fromClient } })
  | .iceControlling =>
    pure (verdict, { st with flow := { st.flow with isClientControlling := info.fromClient } })
  | .data =>
    if realLen len ≤ w.len - off - 4 then
      let st ← searchWithin again ⟨w.base + off + 4, realLen len⟩ st
      pure (verdict, st)
    else pure (verdict, st)
  | .unknown => pure (verdict, st)

/-- One iteration of the loop over the attributes, which ends early for Zoom. -/
def attributeTurn (again : StunState numEntries → Scan (Bool × StunState numEntries))
    (t : Transaction) (w : Window) (s : AttributeWalk numEntries) :
    Scan (Turn (AttributeWalk numEntries) (AttributeWalk numEntries)) := do
  if s.off + 4 < w.len then
    let attr ← Scan.be16 p (w.base + s.off)
    let len ← Scan.be16 p (w.base + s.off + 2)
    let kind := attributeKind attr
    let (verdict, st) ← handleAttribute cfg env info p again t w s.off len kind s.verdict s.st
    if kind = .zoom then pure (.leave ⟨s.off, verdict, st⟩)
    else pure (.stay ⟨s.off + (4 + realLen len), verdict, st⟩)
  else pure (.leave s)

/-- What is known of the flow before its attributes are read. -/
def beforeAttributes (h : StunHeader) (appProto : UInt16) (flow : StunFlow) : UInt16 × StunFlow :=
  let flow := if method h.msgType ∈ turnMethods then { flow with isTurn := true } else flow
  let appProto :=
    if flow.packetCounter > 4 ∧ !flow.isTurn ∧ !flow.isReal ∧
        (htons flow.ends.cPort = 10000 ∨ htons flow.ends.sPort = 10000) then Protocol.signalVoip
    else appProto
  (if flow.stack0 = Protocol.telegram then Protocol.telegramVoip else appProto, flow)

/-- `flow->monit`, which is allocated if it is wanted. -/
def allocateMonit (flow : StunFlow) : StunFlow :=
  if flow.monit.isNone ∧ cfg.monitoringEnabled ∧ env.monitGranted then
    { flow with monit := some fun _ => ⟨0, .v4 0⟩ }
  else flow

/-- `is_stun`, with fuel for its loops: the value that it returns, with `*app_proto` and
`*category`. -/
def isStun (again : StunState numEntries → Scan (Bool × StunState numEntries)) (fuel : Nat)
    (appProto : UInt16) (st : StunState numEntries) :
    Scan (Int × StunVerdict × StunState numEntries) := do
  if st.packet.len < stunHdrLen then pure (-1, ⟨appProto, 0⟩, st)
  else
    let legacy ← isLegacyStun p st.packet
    if legacy then pure (1, ⟨appProto, 0⟩, st)
    else
      let w ← skipTcpFraming info p st.packet
      let w ← skipMultiplexing p w
      let h ← readHeader p w
      match checkHeader info w h with
      | .error rc => pure (rc, ⟨appProto, 0⟩, st)
      | .ok w =>
        let fine ← looksClassic fuel p w h
        if !fine then pure (0, ⟨appProto, 0⟩, st)
        else
          let st := { st with flow := allocateMonit cfg env st.flow }
          if h.msgType ∈ whatsAppTypes then pure (1, ⟨Protocol.whatsAppCall, 0⟩, st)
          else
            let (appProto, flow) := beforeAttributes h appProto st.flow
            let s ← Scan.untilLeave (attributeTurn cfg env info p again h.transaction w) fuel
              ⟨stunHdrLen, ⟨appProto, 0⟩, { st with flow := flow }⟩
            pure (1, s.verdict, s.st)

end

inductive RtpKind where
  | noRtpRtcp
  | rtp
  | rtcp
  deriving DecidableEq, Repr

def isValidRtpPayloadType (type : UInt8) : Bool := type ≤ 34 || (96 ≤ type && type ≤ 127)

def isValidRtcpPayloadType (type : UInt8) : Bool := 192 ≤ type && type ≤ 213

/-- `is_rtp_or_rtcp`, without a place for the sequence number. -/
def isRtpOrRtcp (p : Bytes) (w : Window) : Scan RtpKind := do
  if w.len < 2 then pure .noRtpRtcp
  else
    let b0 ← Scan.byte p w.base
    let b1 ← Scan.byte p (w.base + 1)
    if b0 &&& 0xC0 ≠ 0x80 then pure .noRtpRtcp
    else if isValidRtpPayloadType (b1 &&& 0x7F) ∧ w.len ≥ 12 then
      let csrcCount := (b0 &&& 0x0F).toNat
      if b0 &&& 0x10 ≠ 0 then
        let minLen := 12 + 4 * csrcCount + 4
        if minLen > w.len then pure .noRtpRtcp
        else
          let extLen ← Scan.be16 p (w.base + minLen - 2)
          pure (if minLen + extLen * 4 > w.len then .noRtpRtcp else .rtp)
      else pure (if 12 + 4 * csrcCount > w.len then .noRtpRtcp else .rtp)
    else if isValidRtcpPayloadType b1 ∧ w.len ≥ 8 then
      let words ← Scan.be16 p (w.base + 2)
      pure (if (words + 1) * 4 > w.len then .noRtpRtcp else .rtcp)
    else pure .noRtpRtcp

variable {numEntries : UInt32} (cfg : StunConfig) (env : StunEnv) (info : PacketInfo) (p : Bytes)

/-- A packet with the first byte of a STUN message. -/
def stunPacket (again : StunState numEntries → Scan (Bool × StunState numEntries)) (fuel : Nat)
    (st : StunState numEntries) : Scan (StunState numEntries) := do
  let (rc, verdict, st) ← isStun cfg env info p again fuel Protocol.unknown st
  if rc = 1 ∧ isNewSubclassificationBetter st.flow verdict.appProto then
    stunAddConnection cfg env info p verdict.appProto (getMaster st.flow) verdict.category st
  else pure st

/-- The flow before the first DTLS packet is handed to the TLS dissector. -/
def resetForDtls (flow : StunFlow) : StunFlow :=
  { flow with
    stack0 := Protocol.unknown
    stack1 := Protocol.unknown
    maxExtraPacketsToCheck := UInt8.ofNat (min 255 (flow.maxExtraPacketsToCheck.toNat + 10))
    maybeDtls := true }

/-- An application that is known already is kept if the TLS dissector finds none. -/
def keepOldSubclassification (first : Bool) (old0 : UInt16) (st : StunState numEntries) :
    Scan (StunState numEntries) :=
  if first ∧ st.flow.stack0 = Protocol.dtls ∧ st.flow.stack1 = Protocol.unknown ∧
      old0 ≠ Protocol.unknown ∧ old0 ≠ Protocol.stun then
    stunAddConnection cfg env info p (if old0 = Protocol.rtp then Protocol.srtp else old0)
      (getMaster st.flow) 0 st
  else pure st

/-- The old classification is put back if this is no DTLS packet after all. -/
def rollbackDtls (first : Bool) (old0 old1 : UInt16) (flow : StunFlow) : StunFlow :=
  if flow.stack0 = Protocol.unknown ∧ first then
    let flow := env.setDetectedProtocol flow old0 old1
    { flow with
      maybeDtls := false, maxExtraPacketsToCheck := flow.maxExtraPacketsToCheck - 10 }
  else flow

/-- A DTLS packet goes through the TLS dissector. -/
def switchToDtls (st : StunState numEntries) : Scan (StunState numEntries) := do
  let first := !st.flow.maybeDtls
  let old0 := if first then st.flow.stack0 else Protocol.unknown
  let old1 := if first then st.flow.stack1 else Protocol.unknown
  let flow := env.switchToTls st.packet first (if first then resetForDtls st.flow else st.flow)
  let after ← keepOldSubclassification cfg env info p first old0 { st with flow := flow }
  pure { after with flow := rollbackDtls env first old0 old1 after.flow }

def dtlsPacket (st : StunState numEntries) : Scan (StunState numEntries) := do
  if cfg.opportunisticTlsEnabled ∧ st.packet.len > 13 then
    let header ← Scan.ofAccess ((⟨p, []⟩ : Memory).fetch st.packet.base 13)
    if (isDtls header st.packet.len).isSome ∧ !st.flow.certificateProcessed ∧
        !st.flow.monitoring then
      switchToDtls cfg env info p st
    else pure st
  else pure st

/-- A message of a TURN channel. -/
def turnChannel (again : StunState numEntries → Scan (Bool × StunState numEntries))
    (st : StunState numEntries) : Scan (StunState numEntries) := do
  if st.flow.isTurn ∧ st.packet.len ≥ 4 then
    let chLen ← Scan.be16 p (st.packet.base + 2)
    if chLen ≤ st.packet.len - 4 then searchWithin again ⟨st.packet.base + 4, chLen⟩ st
    else pure st
  else pure st

/-- The counters and times for an RTP packet. -/
def noteRtp (payloadType : UInt8) (flow : StunFlow) : StunFlow :=
  let counters := flow.rtpCounters.set info.direction
    (flow.rtpCounters[info.direction] + 1)
  let flow := { flow with rtpCounters := counters }
  let flow :=
    if flow.tStart ≠ 0 then { flow with tEnd := flow.nowSec }
    else if counters[0] ≠ 0 ∧ counters[1] ≠ 0 then
      { flow with tStart := flow.nowSec, tEnd := flow.nowSec }
    else flow
  { flow with multimediaTypes :=
      flow.multimediaTypes ||| env.streamType (payloadType &&& 0x7F) flow.stack0 }

def rtpPacket (st : StunState numEntries) : Scan (StunState numEntries) := do
  let kind ← isRtpOrRtcp p st.packet
  match kind with
  | .rtp =>
    let payloadType ← Scan.byte p (st.packet.base + 1)
    let flow := noteRtp env info payloadType st.flow
    let st := { st with flow := flow }
    if flow.stack0 ≠ Protocol.rtp ∧ flow.stack0 ≠ Protocol.rtcp ∧ flow.stack1 ≠ Protocol.srtp then
      if flow.stack1 ≠ Protocol.unknown then
        if flow.stack1 = Protocol.dtls then pure st
        else stunAddConnection cfg env info p flow.stack0 Protocol.srtp 0 st
      else
        stunAddConnection cfg env info p
          (if getMaster flow = Protocol.stun then Protocol.rtp else Protocol.srtp) (getMaster flow)
          0 st
    else if flow.stack0 = Protocol.rtcp ∧ flow.stack1 = Protocol.unknown ∧ !flow.monitoring then
      pure { st with flow := env.setDetectedProtocol flow Protocol.unknown Protocol.rtp }
    else pure st
  | .rtcp => pure { st with flow := { st.flow with rtcpSeen := true } }
  | .noRtpRtcp => pure st

/-- A Microsoft multiplexed TURN message. -/
def multiplexedChannel (again : StunState numEntries → Scan (Bool × StunState numEntries))
    (st : StunState numEntries) : Scan (StunState numEntries) := do
  if st.packet.len ≥ 12 then
    let type ← Scan.be16 p st.packet.base
    if type = 0xFF10 ∧ st.flow.stack0 = Protocol.msTeamsCall then
      let chLen ← Scan.be16 p (st.packet.base + 2)
      if chLen = st.packet.len - 4 ∧ chLen ≥ 8 then
        searchWithin again ⟨st.packet.base + 12, chLen - 8⟩ st
      else pure st
    else pure st
  else pure st

/-- The ranges of the first byte. -/
def demultiplex (again : StunState numEntries → Scan (Bool × StunState numEntries)) (fuel : Nat)
    (firstByte : UInt8) (msgType : Nat) (st : StunState numEntries) :
    Scan (StunState numEntries) :=
  if firstByte ≤ 3 ∨ (st.flow.stack0 = Protocol.whatsAppCall ∧ msgType ∈ whatsAppTypes) then
    stunPacket cfg env info p again fuel st
  else if firstByte ≤ 19 then pure st
  else if firstByte ≤ 63 then dtlsPacket cfg env info p st
  else if firstByte ≤ 79 then turnChannel p again st
  else if firstByte ≤ 127 then pure st
  else if firstByte ≤ 191 then rtpPacket cfg env info p st
  else multiplexedChannel p again st

/-- `stun_search_again`, with fuel for the recursion and the loops. -/
def stunSearchAgain : Nat → StunState numEntries → Scan (Bool × StunState numEntries)
  | 0, _ => .stuck
  | fuel + 1, st => do
    if st.packet.len ≤ 1 then keepExtraDissection cfg info p st
    else
      let firstByte ← Scan.byte p st.packet.base
      let msgType ← Scan.be16 p st.packet.base
      let st ← demultiplex cfg env info p (stunSearchAgain fuel) fuel firstByte msgType st
      keepExtraDissection cfg info p st

end Ndpi.Source.Stun
