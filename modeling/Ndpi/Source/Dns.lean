import Ndpi.Lib.Scan
import Ndpi.Lib.Words

/-!
# The walk through a DNS message

`protocols/dns.c:42-97,149-172,190-192,239-629,869-889` and `ndpi_typedefs.h:1719-1726`:
the names, questions and resource records of a message. Offsets are naturals; from the
first name on, which lies in the payload, they stay far below 2^32. The recursion of
`getNameLength` and the loop over the labels of a name take fuel. A result of -1 is
`none`.
-/
namespace Ndpi.Source.Dns
open Lib

structure Packet where
  payload : Bytes
  short : payload.length < 65536

def Packet.payloadPacketLen (p : Packet) : Nat := p.payload.length

def Packet.fetch (p : Packet) (offset count : Nat) : Scan Bytes :=
  .ofAccess ((⟨p.payload, []⟩ : Memory).fetch offset count)

def Packet.byte (p : Packet) (offset : Nat) : Scan Nat := do
  let bytes ← p.fetch offset 1
  pure (beNat bytes)

/-- `ntohs` of the two bytes at the offset; moving on is left to the caller. -/
def get16 (p : Packet) (offset : Nat) : Scan Nat := do
  let bytes ← p.fetch offset 2
  pure (beNat bytes)

def get32 (p : Packet) (offset : Nat) : Scan Nat := do
  let bytes ← p.fetch offset 4
  pure (beNat bytes)

def getNameLength (p : Packet) : Nat → Nat → Scan Nat
  | 0, _ => .stuck
  | fuel + 1, i =>
    if i ≥ p.payloadPacketLen then pure 0
    else do
      let len ← p.byte i
      if len = 0 then pure 1
      else if len &&& 0xC0 = 0xC0 then pure 2
      else do
        let off := (len + 1) % 256
        let rest ← getNameLength p fuel (i + off)
        pure (off + rest)

/-- The length of a name as the callers keep it, in a variable of 16 bits. -/
def dataLength (p : Packet) (fuel x : Nat) : Scan Nat := do
  let length ← getNameLength p fuel x
  pure (wrap16 length)

def dnsValidchar : List Nat := [0x00000000, 0x03ff2000, 0x87fffffe, 0x07fffffe, 0, 0, 0, 0]

def isValidchar (c : Nat) : Bool := (dnsValidchar.getD (c / 32) 0).testBit (c % 32)

def tolower (c : Nat) : Nat := if 0x41 ≤ c ∧ c ≤ 0x5A then c + 32 else c

def isprint (c : Nat) : Bool := 0x20 ≤ c && c ≤ 0x7e

/-- The variables of `ndpi_grab_dns_name`. -/
structure NameState where
  off : Nat
  hostname : Memory
  j : Nat
  hostnameIsValid : Bool

def NameState.put (s : NameState) (c : Nat) : NameState :=
  { s with hostname := s.hostname.store s.j (UInt8.ofNat c), j := s.j + 1 }

def NameState.putChecked (s : NameState) (ignoreChecks : Bool) (c : Nat) : NameState :=
  if ignoreChecks || isValidchar c then s.put (tolower c)
  else { s.put (if isprint c then 0x5F else 0x3F) with hostnameIsValid := false }

/-- The inner loop, over the characters of a label. -/
def copyLabel (p : Packet) (maxLen : Nat) (ignoreChecks : Bool) : Nat → NameState → Scan NameState
  | 0, s => pure s
  | cl + 1, s =>
    if s.j < maxLen then do
      let c ← p.byte s.off
      copyLabel p maxLen ignoreChecks cl ({ s with off := s.off + 1 }.putChecked ignoreChecks c)
    else pure s

/-- The loop over the labels. -/
def grabLabels (p : Packet) (maxLen : Nat) (ignoreChecks : Bool) : Nat → NameState → Scan NameState
  | 0, _ => .stuck
  | fuel + 1, s =>
    if s.j < maxLen ∧ s.off < p.payloadPacketLen then do
      let cl ← p.byte s.off
      if cl = 0 then pure s
      -- Compressed names are not supported.
      else if cl &&& 0xC0 ≠ 0 ∨ s.off + 1 + cl ≥ p.payloadPacketLen then pure { s with j := 0 }
      else do
        let inside := { s with off := s.off + 1 }
        let dotted := if s.j ≠ 0 ∧ s.j < maxLen then inside.put 0x2E else inside
        let copied ← copyLabel p maxLen ignoreChecks cl dotted
        grabLabels p maxLen ignoreChecks fuel copied
    else pure s

/-- The state afterwards; `j` is the length of the name. -/
def ndpiGrabDnsName (p : Packet) (fuel off : Nat) (hostname : Memory) (maxLen : Nat)
    (ignoreChecks : Bool) : Scan NameState := do
  let s ← grabLabels p (sub32 maxLen 1) ignoreChecks fuel ⟨off, hostname, 0, true⟩
  pure { s with hostname := s.hostname.store s.j 0 }

/-- The counts of `struct ndpi_dns_packet_header`, in host order. -/
structure Header where
  numQueries : UInt16
  numAnswers : UInt16
  authorityRrs : UInt16
  additionalRrs : UInt16
  deriving DecidableEq, Repr

inductive Risk where
  | malformedPacket | minorIssues | dnsSuspiciousTraffic
  deriving DecidableEq, Repr

structure RspAddr where
  address : Bytes
  isIpv6 : Bool
  ttl : Nat
  deriving DecidableEq, Repr

/-- What is handed to `ndpi_cache_address`, `ndpi_cache_hostname_ip` and, as the key, to
`ndpi_lru_add_to_cache`. -/
inductive CacheCall where
  | address (address : Bytes) (ttl : Nat)
  | hostnameIp (address : Bytes)
  | fpcDns (key : Bytes) (appProtocol : Nat)
  deriving DecidableEq, Repr

/-- The part `protos.dns` of a flow, with the risks it was given and the calls of the
caches. `rspAddr` has the first `num_rsp_addr` addresses. -/
structure DnsFlow where
  queryType : Nat
  rspType : Nat
  edns0UdpPayloadSize : Nat
  rspAddr : List RspAddr
  geolocationIataCode : Memory
  ptrDomainName : Memory
  risks : List (Risk × String)
  cacheCalls : List CacheCall
  deriving DecidableEq, Repr

def DnsFlow.setRisk (flow : DnsFlow) (risk : Risk) (message : String) : DnsFlow :=
  { flow with risks := flow.risks ++ [(risk, message)] }

def obsoleteTypes : List Nat :=
  [3, 4, 254, 7, 8, 9, 14, 253, 11, 10, 38, 30, 25, 24, 13, 17, 19, 20, 21, 22, 23, 26, 31, 32, 34,
    42, 40, 27, 100, 101, 102, 103, 99, 56, 57, 58, 104, 105, 106, 107, 259]

def ndpiCheckDnsType (flow : DnsFlow) (dnsType : Nat) : DnsFlow :=
  if dnsType ∈ obsoleteTypes then
    flow.setRisk .dnsSuspiciousTraffic "Obsolete DNS record type"
  else flow

/-- What the walk reads of the module and of the flow; protocol numbers as in
`ndpi_protocol_ids.h`. -/
structure Settings where
  addressCacheSize : Nat
  hostnameDnsCheckEnabled : Bool
  fpcEnabled : Bool
  fpcDnsCache : Bool
  masterProtocol : Nat
  appProtocol : Nat

def protocolMdns : Nat := 8

/-- The result of a walk: the offset it ended at, and the flow. -/
abbrev Walked := Option Nat × DnsFlow

structure Place where
  x : Nat
  flow : DnsFlow

def Place.done (s : Place) : Walked := (some s.x, s.flow)

def queryTurn (p : Packet) (fuel : Nat) (s : Place) : Scan (Turn Place Walked) := do
  let dataLen ← dataLength p fuel s.x
  if dataLen = 0 then pure (.leave (none, s.flow))
  else
    let x := s.x + dataLen
    let flow := if dataLen > 253 then
      s.flow.setRisk .malformedPacket "Invalid DNS Query Lenght" else s.flow
    if x + 4 > p.payloadPacketLen then
      pure (.leave (none, flow.setRisk .malformedPacket "Invalid DNS Query Lenght"))
    else do
      let rspType ← get16 p x
      let flow := if flow.queryType = 0 then { flow with queryType := rspType } else flow
      pure (.stay ⟨x + 4, flow⟩)

def processQueries (p : Packet) (fuel : Nat) (header : Header) (payloadOffset : Nat)
    (flow : DnsFlow) : Scan Walked :=
  Scan.turns (queryTurn p fuel) Place.done header.numQueries.toNat ⟨payloadOffset, flow⟩

structure AnswerPlace where
  x : Nat
  found : Bool
  flow : DnsFlow

def AnswerPlace.done (s : AnswerPlace) : Walked := (some s.x, s.flow)

def maxNumDnsRspAddresses : Nat := 8

/-- An address of an answer, as long as there is room for it. -/
def addAddress (p : Packet) (cfg : Settings) (x dataLen ttl : Nat) (flow : DnsFlow) :
    Scan DnsFlow :=
  if flow.rspAddr.length < maxNumDnsRspAddresses then do
    let bytes ← p.fetch x dataLen
    let address := bytes ++ List.replicate (16 - dataLen) 0
    let cached := (if cfg.addressCacheSize ≠ 0 then [CacheCall.address address ttl] else []) ++
      if cfg.hostnameDnsCheckEnabled then [CacheCall.hostnameIp address] else []
    pure { flow with
      rspAddr := flow.rspAddr ++ [⟨address, dataLen == 16, ttl⟩]
      cacheCalls := flow.cacheCalls ++ cached }
  else pure flow

/-- All addresses go to the cache of the first packet classification. -/
def addToFpcDnsCache (p : Packet) (cfg : Settings) (x dataLen : Nat) (flow : DnsFlow) :
    Scan DnsFlow :=
  if cfg.fpcEnabled ∧ cfg.appProtocol ≠ 0 ∧ cfg.appProtocol ≠ cfg.masterProtocol ∧
      cfg.fpcDnsCache then do
    let key ← p.fetch x dataLen
    pure { flow with cacheCalls := flow.cacheCalls ++ [.fpcDns key cfg.appProtocol] }
  else pure flow

/-- What an address answer leaves in the flow, and `found`. -/
def useAddress (p : Packet) (cfg : Settings) (x dataLen ttl : Nat) (found : Bool) (flow : DnsFlow) :
    Scan (Bool × DnsFlow) :=
  if found then do
    let flow ← addToFpcDnsCache p cfg x dataLen flow
    pure (true, flow)
  else do
    let flow ← addAddress p cfg x dataLen ttl flow
    let found := decide (flow.rspAddr.length ≥ maxNumDnsRspAddresses)
    let flow ← addToFpcDnsCache p cfg x dataLen flow
    pure (found, flow)

/-- What a pointer answer leaves in the flow, and `found`. -/
def usePointer (p : Packet) (fuel : Nat) (cfg : Settings) (x : Nat) (found : Bool)
    (flow : DnsFlow) : Scan (Bool × DnsFlow) := do
  let ptrLen ← get16 p (x - 2)
  if x + ptrLen ≤ p.payloadPacketLen ∧ found = false then do
    let name ← ndpiGrabDnsName p fuel x flow.ptrDomainName 64 (cfg.masterProtocol == protocolMdns)
    pure (true, { flow with ptrDomainName := name.hostname })
  else pure (found, flow)

/-- What an answer of `dataLen` bytes at `x` leaves in the flow, and `found`. -/
def useAnswer (p : Packet) (fuel : Nat) (cfg : Settings) (x rspType dataLen ttl : Nat)
    (found : Bool) (flow : DnsFlow) : Scan (Bool × DnsFlow) :=
  if rspType = 0x05 then pure (found, flow)
  else if rspType = 0x0C then usePointer p fuel cfg x found flow
  else if (rspType = 0x1 ∧ dataLen = 4) ∨ (rspType = 0x1c ∧ dataLen = 16) then
    useAddress p cfg x dataLen ttl found flow
  else pure (found, flow)

/-- An answer from its class field on, if twelve more bytes are there. -/
def answerData (p : Packet) (fuel : Nat) (cfg : Settings) (rspType : Nat) (s : AnswerPlace) :
    Scan AnswerPlace :=
  if s.x + 12 ≤ p.payloadPacketLen then do
    let ttl ← get32 p (s.x + 2)
    let dataLen ← get16 p (s.x + 6)
    let x := s.x + 8
    if x + dataLen ≤ p.payloadPacketLen then do
      let used ← useAnswer p fuel cfg x rspType dataLen ttl s.found s.flow
      pure ⟨x + dataLen, used.1, used.2⟩
    else pure ⟨x, s.found, s.flow⟩
  else pure s

def answerTurn (p : Packet) (fuel : Nat) (cfg : Settings) (header : Header) (s : AnswerPlace) :
    Scan (Turn AnswerPlace Walked) := do
  let dataLen ← dataLength p fuel s.x
  if dataLen = 0 then pure (.leave (none, s.flow))
  else
    let x := s.x + dataLen
    if x + 8 ≥ p.payloadPacketLen then pure (.leave (none, s.flow))
    else do
      let rspType ← get16 p x
      let rspTtl ← get32 p (x + 4)
      let flow := if rspTtl = 0 then
        s.flow.setRisk .minorIssues "DNS Record with zero TTL" else s.flow
      let flow := if s.found then flow
        else { ndpiCheckDnsType flow rspType with rspType := rspType }
      let after ← answerData p fuel cfg rspType ⟨x + 2, s.found, flow⟩
      if after.found ∧ header.additionalRrs = 0 then pure (.leave after.done)
      else pure (.stay after)

def processAnswers (p : Packet) (fuel : Nat) (cfg : Settings) (header : Header)
    (payloadOffset : Nat) (flow : DnsFlow) : Scan Walked :=
  Scan.turns (answerTurn p fuel cfg header) AnswerPlace.done header.numAnswers.toNat
    ⟨payloadOffset, false, flow⟩

/-- A record of the authority section. -/
def authorityTurn (p : Packet) (fuel : Nat) (s : Place) : Scan (Turn Place Walked) :=
  if wrap32 (s.x + 6) ≥ p.payloadPacketLen then pure (.leave (none, s.flow))
  else do
    let dataLen ← dataLength p fuel s.x
    if dataLen = 0 then pure (.leave (none, s.flow))
    else
      let x := s.x + dataLen
      if x + 8 ≥ p.payloadPacketLen then pure (.leave (none, s.flow))
      else do
        let _ ← get16 p x
        let x := x + 2
        if x + 12 ≤ p.payloadPacketLen then do
          let dataLen ← get16 p (x + 6)
          let x := x + 8
          pure (.stay ⟨if x + dataLen ≤ p.payloadPacketLen then x + dataLen else x, s.flow⟩)
        else pure (.stay ⟨x, s.flow⟩)

/-- The characters of `gpdns-`. -/
def nsidMark : Bytes := [0x67, 0x70, 0x64, 0x6E, 0x73, 0x2D]

/-- An OPT record, from its class field on. -/
def optRecord (p : Packet) (x : Nat) (flow : DnsFlow) : Scan DnsFlow := do
  let size ← get16 p x
  let flow := { flow with edns0UdpPayloadSize := size }
  let x := x + 6
  let rdataLen ← get16 p x
  if rdataLen > 0 ∧ x + 6 ≤ p.payloadPacketLen then do
    let optCode ← get16 p (x + 2)
    let optLen ← get16 p (x + 4)
    if optCode = 0x03 ∧ optLen ≤ rdataLen + 4 ∧ optLen > 6 ∧
        x + 6 + optLen ≤ p.payloadPacketLen then do
      let opt ← p.fetch (x + 6) 6
      if opt = nsidMark then do
        let code ← p.fetch (x + 12) (min (optLen - 6) 3)
        pure { flow with geolocationIataCode := flow.geolocationIataCode.storeAll 0 code }
      else pure flow
    else pure flow
  else pure flow

/-- An additional record of this type, from its class field on. -/
def useAdditional (p : Packet) (x rspType : Nat) (flow : DnsFlow) : Scan DnsFlow :=
  if rspType = 41 then optRecord p x flow else pure flow

/-- A record of the additional section. The data of a record are skipped as if its
`RDLENGTH` were the first byte of a name. -/
def additionalTurn (p : Packet) (fuel : Nat) (s : Place) : Scan (Turn Place Walked) :=
  if wrap32 (s.x + 6) > p.payloadPacketLen then pure (.leave (none, s.flow))
  else do
    let dataLen ← dataLength p fuel s.x
    if dataLen = 0 then pure (.leave (none, s.flow))
    else
      let x := s.x + dataLen
      if x + 10 > p.payloadPacketLen then pure (.leave (none, s.flow))
      else do
        let rspType ← get16 p x
        let flow ← useAdditional p (x + 2) rspType s.flow
        let x := x + 8
        let dataLen ← dataLength p fuel x
        if dataLen = 0 then pure (.leave (none, flow))
        else pure (.stay ⟨x + dataLen, flow⟩)

def processAdditionals (p : Packet) (fuel : Nat) (header : Header) (payloadOffset : Nat)
    (flow : DnsFlow) : Scan Walked :=
  if header.additionalRrs = 0 then pure (some payloadOffset, flow)
  else do
    let walked ← Scan.turns (authorityTurn p fuel) Place.done header.authorityRrs.toNat
      ⟨payloadOffset, flow⟩
    match walked with
    | (none, flow) => pure (none, flow)
    | (some x, flow) =>
      Scan.turns (additionalTurn p fuel) Place.done header.additionalRrs.toNat ⟨x, flow⟩

/-- The three walks of `search_dns` through a response. -/
def processResponse (p : Packet) (fuel : Nat) (cfg : Settings) (header : Header) (off : Nat)
    (flow : DnsFlow) : Scan Walked := do
  let queries ← processQueries p fuel header off flow
  match queries with
  | (none, flow) => pure (none, flow)
  | (some off, flow) =>
    let answers ← processAnswers p fuel cfg header off flow
    match answers with
    | (none, flow) => pure (none, flow)
    | (some off, flow) => processAdditionals p fuel header off flow

end Ndpi.Source.Dns
