import Ndpi.Source.Stun.Dissection

/-!
# The recursion of the STUN dissector

`is_stun` and `stun_search_again` call each other for a part of the payload whose length
is read from the payload. Every such part lies inside the one that is being dissected and
is shorter, so that the recursion ends, reads nothing outside of the payload and leaves
`packet->payload` and its length as they were.
-/
namespace Ndpi.Guarantees.StunRecursion
open Lib Lib.Scan Source.Stun List

/-- The window lies in the payload. -/
def Inside (p : Bytes) (w : Window) : Prop := w.base + w.len ≤ p.length

/-- A part of a window that has room for the header of a message. -/
structure MessagePart (w part : Window) : Prop where
  starts : w.base ≤ part.base
  ends : part.base + part.len ≤ w.base + w.len
  header : stunHdrLen ≤ part.len

lemma MessagePart.trans {inner : Window} (outer : MessagePart w part)
    (nested : MessagePart part inner) : MessagePart w inner :=
  ⟨outer.starts.trans nested.starts, nested.ends.trans outer.ends, nested.header⟩

variable {numEntries : UInt32} {cfg : StunConfig} {env : StunEnv} {info : PacketInfo} {p : Bytes}

section

variable {w : Window}

lemma noteNonStunPacket_yields (inside : Inside p w) :
    (noteNonStunPacket info p w flow).Safe p.length := by
  unfold Inside at inside
  unfold noteNonStunPacket
  split
  case isTrue nonempty =>
    refine yields_bind (yields_byte (by omega)) fun first _ => ?_
    split <;> exact safe_pure
  case isFalse => exact safe_pure

lemma noteLargePacket_yields (inside : Inside p w) :
    (noteLargePacket p w flow).Safe p.length := by
  unfold Inside at inside
  unfold noteLargePacket
  split
  case isTrue large =>
    iterate 3 refine yields_bind (yields_byte (by omega)) fun _ _ => ?_
    split <;> exact safe_pure
  case isFalse => exact safe_pure

variable {st : StunState numEntries}

lemma keepExtraDissection_yields (inside : Inside p st.packet) :
    (keepExtraDissection cfg info p st).Yields p.length (·.2.packet = st.packet) := by
  refine yields_bind (noteNonStunPacket_yields inside) fun _ _ => ?_
  refine yields_bind (noteLargePacket_yields inside) fun _ _ => ?_
  exact yields_pure rfl

lemma switchExtraDissectionToStun_yields (inside : Inside p st.packet) :
    (switchExtraDissectionToStun cfg info p st).Yields p.length (·.packet = st.packet) := by
  unfold switchExtraDissectionToStun
  split
  · exact yields_pure rfl
  · refine yields_bind (keepExtraDissection_yields inside) fun ⟨keep, after⟩ kept => ?_
    dsimp only at kept ⊢
    split <;> exact yields_pure kept

lemma stunAddConnection_yields (inside : Inside p st.packet) :
    (stunAddConnection cfg env info p app master category st).Yields p.length
      (·.packet = st.packet) := by
  unfold stunAddConnection
  split
  · exact yields_pure rfl
  · exact switchExtraDissectionToStun_yields inside

end

section

variable {w : Window}

lemma textAt_yields (inside : offset + text.length ≤ p.length) :
    (textAt p offset text).Safe p.length :=
  yields_bind (yields_fetch (.inr inside)) fun _ _ => safe_pure

variable (inside : Inside p w) (header : stunHdrLen ≤ w.len)
include inside header

lemma isLegacyStun_yields :
    (isLegacyStun p w).Safe p.length := by
  unfold Inside at inside
  unfold stunHdrLen at header
  refine yields_bind (textAt_yields (by simp only [length_cons, length_nil]; omega))
    fun first _ => ?_
  split
  · exact textAt_yields (by simp only [length_cons, length_nil]; omega)
  · exact safe_pure

lemma skipTcpFraming_yields :
    (skipTcpFraming info p w).Yields p.length (MessagePart w) := by
  unfold Inside at inside
  have whole : MessagePart w w := ⟨le_rfl, le_rfl, header⟩
  unfold skipTcpFraming
  split
  case isTrue framed =>
    refine yields_bind (yields_be16 (by omega)) fun len _ => ?_
    split
    · refine yields_pure ⟨?_, ?_, ?_⟩ <;> dsimp only <;> omega
    · exact yields_pure whole
  case isFalse => exact yields_pure whole

lemma skipMultiplexing_yields :
    (skipMultiplexing p w).Yields p.length (MessagePart w) := by
  unfold Inside at inside
  have whole : MessagePart w w := ⟨le_rfl, le_rfl, header⟩
  unfold skipMultiplexing
  split
  case isTrue long =>
    refine yields_bind (yields_be16 (by omega)) fun type _ => ?_
    refine yields_bind (yields_be16 (by omega)) fun len _ => ?_
    split
    · refine yields_pure ⟨?_, ?_, ?_⟩ <;> dsimp only <;> omega
    · exact yields_pure whole
  case isFalse => exact yields_pure whole

lemma readHeader_yields :
    (readHeader p w).Safe p.length := by
  unfold Inside at inside
  unfold stunHdrLen at header
  refine yields_bind (yields_be16 (by omega)) fun _ _ => ?_
  refine yields_bind (yields_be16 (by omega)) fun _ _ => ?_
  iterate 3 refine yields_bind (yields_be32 (by omega)) fun _ _ => ?_
  exact safe_map (yields_be32 (by omega))

omit inside header

lemma checkHeader_part (header : stunHdrLen ≤ w.len) (checked : checkHeader info w h = .ok part) :
    MessagePart w part := by
  unfold checkHeader at checked
  split at checked
  case isTrue => cases checked
  split at checked
  case isTrue => cases checked
  case isFalse fits =>
  split at checked
  case isTrue => cases checked
  split at checked
  case isTrue => cases checked
  obtain rfl := Except.ok.inj checked
  unfold firstMessage
  split
  case isTrue tcp =>
    have shorter : h.msgLen + stunHdrLen ≤ w.len := by
      by_contra longer
      exact fits ⟨tcp, by omega⟩
    exact ⟨le_rfl, by dsimp only; omega, by dsimp only; omega⟩
  case isFalse => exact ⟨le_rfl, le_rfl, header⟩

lemma classicTurn_yields (inside : Inside p w) (off : Nat) :
    (classicTurn p w off).Yields p.length fun came =>
      (∀ next, came = .stay next → True ∧ w.len - next < w.len - off) ∧
        ∀ last, came = .leave last → True := by
  unfold Inside at inside
  unfold classicTurn
  split
  case isTrue more =>
    refine yields_bind (yields_be16 (by omega)) fun len _ => yields_pure ⟨?_, fun _ _ => trivial⟩
    intro next stays
    obtain rfl := Turn.stay.inj stays
    exact ⟨trivial, by omega⟩
  case isFalse =>
    refine yields_pure ⟨?_, fun _ _ => trivial⟩
    intro next stays
    cases stays

lemma looksClassic_yields (inside : Inside p w) (header : stunHdrLen ≤ w.len)
    (enough : w.len ≤ fuel) (h : StunHeader) :
    (looksClassic fuel p w h).Safe p.length := by
  unfold looksClassic
  split
  · exact safe_pure
  split
  · exact safe_pure
  · unfold stunHdrLen at header ⊢
    have walked : (untilLeave (classicTurn p w) fuel 20).Safe p.length :=
      yields_untilLeave
        (fun off _ => classicTurn_yields inside off) (by omega) trivial
    exact yields_bind walked fun _ _ => safe_pure

end

section

/-- Calls of `stun_search_again` on less than `fuel` bytes of the payload end and put the
window back. -/
def Restores (p : Bytes) (fuel : Nat)
    (again : StunState numEntries → Scan (Bool × StunState numEntries)) : Prop :=
  ∀ st, Inside p st.packet → st.packet.len < fuel →
    (again st).Yields p.length (·.2.packet = st.packet)

variable {again : StunState numEntries → Scan (Bool × StunState numEntries)} {fuel : Nat}
  {w : Window} {off len : Nat}

lemma searchWithin_yields (restores : Restores p fuel again)
    (inside : Inside p part) (shorter : part.len < fuel) :
    (searchWithin again part st).Yields p.length (·.packet = st.packet) :=
  yields_bind (restores { st with packet := part } inside shorter) fun _ _ => yields_pure rfl

lemma loadWord_yields (inside : offset + 4 ≤ p.length) : (loadWord p offset).Safe p.length := by
  iterate 3 refine yields_bind (yields_byte (by omega)) fun _ _ => ?_
  exact safe_map (yields_byte (by omega))

/-- The fields of an address attribute, which the two decoders combine in their own way. -/
def addressFields (p : Bytes) (w : Window) (off realLen : Nat)
    (v4 : Nat → UInt32 → AddressPort)
    (v6 : Nat → UInt32 → UInt32 → UInt32 → UInt32 → AddressPort) : Scan (Option AddressPort) := do
  if off + 4 + realLen ≤ w.len ∧ (realLen = 8 ∨ realLen = 20) then
    let protocolFamily ← Scan.byte p (w.base + off + 5)
    if protocolFamily = 0x01 ∧ realLen = 8 then
      let port ← Scan.be16 p (w.base + off + 6)
      let ip ← loadWord p (w.base + off + 8)
      pure (some (v4 port ip))
    else if protocolFamily = 0x02 ∧ realLen = 20 then
      let port ← Scan.be16 p (w.base + off + 6)
      let w0 ← loadWord p (w.base + off + 8)
      let w1 ← loadWord p (w.base + off + 12)
      let w2 ← loadWord p (w.base + off + 16)
      let w3 ← loadWord p (w.base + off + 20)
      pure (some (v6 port w0 w1 w2 w3))
    else pure none
  else pure none

variable (inside : Inside p w)
include inside

lemma addressFields_yields {realLen : Nat}
    (v6 : Nat → UInt32 → UInt32 → UInt32 → UInt32 → AddressPort) :
    (addressFields p w off realLen v4 v6).Safe p.length := by
  unfold Inside at inside
  unfold addressFields
  split
  case isTrue fits =>
    refine yields_bind (yields_byte (by omega)) fun _ _ => ?_
    split
    case isTrue =>
      refine yields_bind (yields_be16 (by omega)) fun _ _ => ?_
      exact safe_map (loadWord_yields (by omega))
    split
    case isTrue =>
      refine yields_bind (yields_be16 (by omega)) fun _ _ => ?_
      iterate 3 refine yields_bind (loadWord_yields (by omega)) fun _ _ => ?_
      exact safe_map (loadWord_yields (by omega))
    case isFalse => exact safe_pure
  case isFalse => exact safe_pure

lemma decodeAddress_yields (realLen : Nat) :
    (decodeAddress p w.base w.len off realLen).Safe p.length :=
  addressFields_yields inside
    fun port w0 w1 w2 w3 => ⟨UInt16.ofNat port, .v6 ⟨w0, w1, w2, w3⟩⟩

lemma decodeXorAddress_yields (realLen : Nat) :
    (decodeXorAddress p w.base w.len off realLen t).Safe p.length :=
  addressFields_yields inside
    fun port w0 w1 w2 w3 => ⟨UInt16.ofNat port ^^^ (t.magicCookie >>> 16).toUInt16,
      .v6 ⟨w0 ^^^ htonl t.magicCookie, w1 ^^^ htonl t.id0, w2 ^^^ htonl t.id1,
        w3 ^^^ htonl t.id2⟩⟩

lemma realmAttribute_yields (more : off + 4 < w.len) (st : StunState numEntries) :
    (realmAttribute env p w off len verdict st).Yields p.length (·.2.packet = st.packet) := by
  unfold Inside at inside
  unfold realmAttribute
  split
  · refine yields_bind (yields_fetch (.inr (by omega))) fun _ _ => ?_
    dsimp only
    split <;> exact yields_pure rfl
  · exact yields_pure rfl

omit inside

variable (restores : Restores p fuel again)
include restores

lemma handleAttribute_yields (inside : Inside p w)
    (more : off + 4 < w.len) (enough : w.len ≤ fuel) (t : Transaction) (kind : AttributeKind)
    (verdict : StunVerdict) (st : StunState numEntries) :
    (handleAttribute cfg env info p again t w off len kind verdict st).Yields p.length
      (·.2.packet = st.packet) := by
  cases kind with
  | address field =>
    dsimp only [handleAttribute]
    split
    · exact yields_bind (decodeAddress_yields inside _) fun _ _ => yields_pure rfl
    · exact yields_pure rfl
  | xorPeerAddress | xorMappedAddress | xorRelayedAddress =>
    dsimp only [handleAttribute]
    split
    · exact yields_bind (decodeXorAddress_yields inside _) fun _ _ => yields_pure rfl
    · exact yields_pure rfl
  | realm => exact realmAttribute_yields inside more st
  | data =>
    dsimp only [handleAttribute]
    split
    case isTrue fits =>
      unfold Inside at inside
      have part : Inside p ⟨w.base + off + 4, realLen len⟩ := by
        unfold Inside
        dsimp only
        omega
      exact yields_bind (searchWithin_yields restores part (by dsimp only; omega))
        fun _ kept => yields_pure kept
    case isFalse => exact yields_pure rfl
  | zoom | application proto | iceControlled | iceControlling | unknown => exact yields_pure rfl

lemma attributeTurn_yields (inside : Inside p w) (enough : w.len ≤ fuel) (t : Transaction)
    (s : AttributeWalk numEntries) (kept : s.st.packet = packet) :
    (attributeTurn cfg env info p again t w s).Yields p.length fun came =>
      (∀ next, came = .stay next →
        next.st.packet = packet ∧ w.len - next.off < w.len - s.off) ∧
      ∀ last, came = .leave last → last.st.packet = packet := by
  unfold attributeTurn
  split
  case isTrue more =>
    have bound := inside
    unfold Inside at bound
    refine yields_bind (yields_be16 (by omega)) fun attr _ => ?_
    refine yields_bind (yields_be16 (by omega)) fun len _ => ?_
    refine yields_bind (handleAttribute_yields restores inside more enough t _ _ _)
      fun ⟨verdict, after⟩ same => ?_
    dsimp only at same ⊢
    split
    · refine yields_pure ⟨?_, ?_⟩
      · intro next stays
        cases stays
      · intro last leaves
        obtain rfl := Turn.leave.inj leaves
        exact same.trans kept
    · refine yields_pure ⟨?_, ?_⟩
      · intro next stays
        obtain rfl := Turn.stay.inj stays
        exact ⟨same.trans kept, by dsimp only; omega⟩
      · intro last leaves
        cases leaves
  case isFalse =>
    refine yields_pure ⟨?_, ?_⟩
    · intro next stays
      cases stays
    · intro last leaves
      obtain rfl := Turn.leave.inj leaves
      exact kept

/-- The loop over the attributes. -/
lemma attributes_yields (inside : Inside p w) (enough : w.len ≤ fuel) (t : Transaction)
    (started : w.len - s.off < fuel) :
    (untilLeave (attributeTurn cfg env info p again t w) fuel s).Yields p.length
      (·.st.packet = s.st.packet) :=
  yields_untilLeave
    (fun u kept => attributeTurn_yields restores inside enough t u kept) started rfl

lemma isStun_yields
    (inside : Inside p st.packet) (enough : st.packet.len ≤ fuel) (appProto : UInt16) :
    (isStun cfg env info p again fuel appProto st).Yields p.length
      (·.2.2.packet = st.packet) := by
  unfold isStun
  split
  · exact yields_pure rfl
  case isFalse long =>
  have header : stunHdrLen ≤ st.packet.len := by omega
  refine yields_bind (isLegacyStun_yields inside header) fun legacy _ => ?_
  split
  · exact yields_pure rfl
  refine yields_bind (skipTcpFraming_yields inside header) fun framed outer => ?_
  have framedInside : Inside p framed := outer.ends.trans inside
  refine yields_bind (skipMultiplexing_yields framedInside outer.header) fun message inner => ?_
  have messageInside : Inside p message := inner.ends.trans framedInside
  refine yields_bind (readHeader_yields messageInside inner.header) fun h _ => ?_
  split
  · exact yields_pure rfl
  case h_2 w checked =>
  have part := (outer.trans inner).trans (checkHeader_part inner.header checked)
  have partInside : Inside p w := part.ends.trans inside
  have shorter : w.len ≤ fuel := by
    have starts := part.starts
    have ends := part.ends
    omega
  refine yields_bind (looksClassic_yields partInside part.header shorter h) fun fine _ => ?_
  split
  · exact yields_pure rfl
  split
  · exact yields_pure rfl
  refine yields_bind (attributes_yields restores partInside shorter _ ?_)
    fun s kept => yields_pure kept
  have room := part.header
  unfold stunHdrLen at room ⊢
  dsimp only
  omega

end

section

variable {again : StunState numEntries → Scan (Bool × StunState numEntries)} {fuel : Nat}
  {st : StunState numEntries}

lemma stunPacket_yields (restores : Restores p fuel again) (inside : Inside p st.packet)
    (enough : st.packet.len ≤ fuel) :
    (stunPacket cfg env info p again fuel st).Yields p.length (·.packet = st.packet) := by
  refine yields_bind (isStun_yields restores inside enough _) fun ⟨rc, verdict, after⟩ kept => ?_
  dsimp only at kept ⊢
  split
  · refine (stunAddConnection_yields ?_).weaken fun _ same => same.trans kept
    rw [kept]
    exact inside
  · exact yields_pure kept

lemma keepOldSubclassification_yields (inside : Inside p st.packet) :
    (keepOldSubclassification cfg env info p first old0 st).Yields p.length
      (·.packet = st.packet) := by
  unfold keepOldSubclassification
  split
  · exact stunAddConnection_yields inside
  · exact yields_pure rfl

lemma switchToDtls_yields (inside : Inside p st.packet) :
    (switchToDtls cfg env info p st).Yields p.length (·.packet = st.packet) := by
  refine yields_bind (keepOldSubclassification_yields ?_) fun after kept => yields_pure kept
  exact inside

lemma dtlsPacket_yields (inside : Inside p st.packet) :
    (dtlsPacket cfg env info p st).Yields p.length (·.packet = st.packet) := by
  have bound := inside
  unfold Inside at bound
  unfold dtlsPacket
  split
  case isTrue long =>
    refine yields_bind (yields_fetch (.inr (by omega))) fun header _ => ?_
    split
    · exact switchToDtls_yields inside
    · exact yields_pure rfl
  case isFalse => exact yields_pure rfl

lemma turnChannel_yields (restores : Restores p fuel again) (inside : Inside p st.packet)
    (enough : st.packet.len ≤ fuel) :
    (turnChannel p again st).Yields p.length (·.packet = st.packet) := by
  unfold Inside at inside
  unfold turnChannel
  split
  case isTrue room =>
    refine yields_bind (yields_be16 (by omega)) fun chLen _ => ?_
    split
    case isTrue fits =>
      have part : Inside p ⟨st.packet.base + 4, chLen⟩ := by
        unfold Inside
        dsimp only
        omega
      exact searchWithin_yields restores part (by dsimp only; omega)
    case isFalse => exact yields_pure rfl
  case isFalse => exact yields_pure rfl

lemma isRtpOrRtcp_yields (inside : Inside p w) : (isRtpOrRtcp p w).Safe p.length := by
  unfold Inside at inside
  unfold isRtpOrRtcp
  split
  · exact safe_pure
  refine yields_bind (yields_byte (by omega)) fun b0 _ => ?_
  refine yields_bind (yields_byte (by omega)) fun b1 _ => ?_
  split
  · exact safe_pure
  split
  · dsimp only
    split
    · split
      · exact safe_pure
      · exact yields_bind (yields_be16 (by omega)) fun _ _ => safe_pure
    · exact safe_pure
  split
  · exact yields_bind (yields_be16 (by omega)) fun _ _ => safe_pure
  · exact safe_pure

lemma rtpPacket_yields (inside : Inside p st.packet) (two : 1 < st.packet.len) :
    (rtpPacket cfg env info p st).Yields p.length (·.packet = st.packet) := by
  have bound := inside
  unfold Inside at bound
  refine yields_bind (isRtpOrRtcp_yields inside) fun kind _ => ?_
  cases kind with
  | noRtpRtcp => exact yields_pure rfl
  | rtcp => exact yields_pure rfl
  | rtp =>
    refine yields_bind (yields_byte (by omega)) fun payloadType _ => ?_
    dsimp only
    split
    · split
      · split
        · exact yields_pure rfl
        · exact stunAddConnection_yields inside
      · exact stunAddConnection_yields inside
    · split <;> exact yields_pure rfl

lemma multiplexedChannel_yields (restores : Restores p fuel again)
    (inside : Inside p st.packet) (enough : st.packet.len ≤ fuel) :
    (multiplexedChannel p again st).Yields p.length (·.packet = st.packet) := by
  unfold Inside at inside
  unfold multiplexedChannel
  split
  case isTrue long =>
    refine yields_bind (yields_be16 (by omega)) fun type _ => ?_
    split
    case isTrue =>
      refine yields_bind (yields_be16 (by omega)) fun chLen _ => ?_
      split
      case isTrue fits =>
        have part : Inside p ⟨st.packet.base + 12, chLen - 8⟩ := by
          unfold Inside
          dsimp only
          omega
        exact searchWithin_yields restores part (by dsimp only; omega)
      case isFalse => exact yields_pure rfl
    case isFalse => exact yields_pure rfl
  case isFalse => exact yields_pure rfl

lemma demultiplex_yields (restores : Restores p fuel again) (inside : Inside p st.packet)
    (enough : st.packet.len ≤ fuel) (two : 1 < st.packet.len) :
    (demultiplex cfg env info p again fuel firstByte msgType st).Yields p.length
      (·.packet = st.packet) := by
  unfold demultiplex
  split
  · exact stunPacket_yields restores inside enough
  split
  · exact yields_pure rfl
  split
  · exact dtlsPacket_yields inside
  split
  · exact turnChannel_yields restores inside enough
  split
  · exact yields_pure rfl
  split
  · exact rtpPacket_yields inside two
  · exact multiplexedChannel_yields restores inside enough

/-- By induction on the fuel: what is dissected again is shorter. -/
lemma stunSearchAgain_restores {fuel : Nat} :
    Restores p fuel (@stunSearchAgain numEntries cfg env info p fuel) := by
  induction fuel with
  | zero =>
    intro st _ short
    omega
  | succ fuel ih =>
    intro st inside short
    unfold stunSearchAgain
    have bound := inside
    unfold Inside at bound
    split
    · exact keepExtraDissection_yields inside
    case isFalse two =>
    refine yields_bind (yields_byte (by omega)) fun firstByte _ => ?_
    refine yields_bind (yields_be16 (by omega)) fun msgType _ => ?_
    refine yields_bind (demultiplex_yields ih inside (by omega) (by omega))
      fun after kept => ?_
    refine (keepExtraDissection_yields ?_).weaken fun _ same => same.trans kept
    rw [kept]
    exact inside

end

/-- The magic cookie and a transaction id. -/
def sampleTransaction : Bytes := [0x21, 0x12, 0xA4, 0x42, 1, 2, 3, 4, 5, 6, 7, 8, 9, 10, 11, 12]

/-- A binding request with an ICE-CONTROLLING attribute. -/
def bindingRequest : Bytes :=
  [0x00, 0x01, 0x00, 0x0C] ++ sampleTransaction ++
    [0x80, 0x2A, 0x00, 0x08, 0, 0, 0, 0, 0, 0, 0, 1]

/-- A send indication with a binding request as its data. -/
def sendIndication : Bytes :=
  [0x00, 0x16, 0x00, 0x24] ++ sampleTransaction ++ [0x00, 0x13, 0x00, 0x20] ++ bindingRequest

/-- A send indication in a TURN channel. -/
def channelPayload : Bytes := [0x40, 0x00, 0x00, 0x38] ++ sendIndication

def sampleConfig : StunConfig := ⟨fun _ => true, true, false, 6⟩

def sampleInfo : PacketInfo := ⟨.udp 5000, ⟨0, Nat.zero_lt_two⟩, true⟩

/-- The rest of the library does nothing. -/
def quietEnv : StunEnv :=
  ⟨true, id, fun _ => false, fun flow _ _ => flow, fun _ _ => 0, fun _ _ flow => flow,
    fun _ _ => 0⟩

/-- A TURN flow. -/
def turnFlow : StunFlow where
  stack0 := Protocol.stun
  stack1 := Protocol.unknown
  ends := ⟨.v4 0x010200C0 0x020200C0, htons 5000, htons 3478⟩
  packetCounter := 2
  nowSec := 100
  hostServerName := []
  monitoring := false
  multimediaTypes := 0
  maxExtraPacketsToCheck := 6
  numExtraPacketsChecked := 1
  extraPacketsFunc := true
  category := 0
  certificateProcessed := false
  monit := none
  maybeDtls := false
  rtcpSeen := false
  isTurn := true
  isClientControlling := false
  addresses := fun _ => ⟨0, .v4 0⟩
  numXorRelayedAddresses := 0
  numXorMappedAddresses := 0
  numNonStunPkt := 0
  nonStunPktLen := #v[0, 0]
  rtpCounters := #v[0, 0]
  tStart := 0
  tEnd := 0

def channelState : StunState 16 := ⟨⟨0, 60⟩, turnFlow, none⟩

/-- The attribute of the innermost message is seen. -/
example : (stunSearchAgain sampleConfig quietEnv sampleInfo channelPayload 61
    channelState).val.map (·.2.flow.isClientControlling) = some true := by decide +kernel

end Ndpi.Guarantees.StunRecursion
