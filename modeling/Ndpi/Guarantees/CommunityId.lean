import Ndpi.Source.CommunityId

/-!
# The community id does not see the direction

The buffer of a flow and of its reverse are the same, for the protocols with ports,
for the ICMP types that have a counterpart and for all other protocols. A message of
an ICMP type without a counterpart keeps its direction. For the protocols with ports
the buffer tells flows apart up to their direction.
-/
namespace Ndpi.Guarantees.CommunityId
open Lib Source.CommunityId List

/-- The requests and replies of ICMP and of ICMPv6. -/
def typePairsV4 : List (UInt8 × UInt8) := [(8, 0), (13, 14), (15, 16), (10, 9), (17, 18)]

def typePairsV6 : List (UInt8 × UInt8) :=
  [(128, 129), (133, 134), (135, 136), (130, 131), (139, 140), (144, 145)]

/-- One is the request and the other the reply. -/
def Counterparts (pairs : List (UInt8 × UInt8)) (one other : UInt8) : Prop :=
  (one, other) ∈ pairs ∨ (other, one) ∈ pairs

/-- The type is a request or a reply. -/
def HasCounterpart (pairs : List (UInt8 × UInt8)) (type : UInt8) : Prop :=
  ∃ pair ∈ pairs, pair.1 = type ∨ pair.2 = type

instance (pairs : List (UInt8 × UInt8)) (type : UInt8) : Decidable (HasCounterpart pairs type) :=
  inferInstanceAs (Decidable (∃ pair ∈ pairs, pair.1 = type ∨ pair.2 = type))

/-- TCP, UDP and SCTP. -/
def HasPorts (l4Proto : UInt8) : Prop := l4Proto = sctp ∨ l4Proto = udp ∨ l4Proto = tcp

instance (l4Proto : UInt8) : Decidable (HasPorts l4Proto) :=
  inferInstanceAs (Decidable (l4Proto = sctp ∨ l4Proto = udp ∨ l4Proto = tcp))

section

variable {Address : Type} (icmpProto : UInt8) (pairs : List (UInt8 × UInt8))

/-- A message of an ICMP type without a counterpart. -/
def OneWay (flow : Flow Address) : Prop :=
  flow.l4Proto = icmpProto ∧ ¬HasCounterpart pairs flow.icmpType

/-- The same flow seen from its other end: the addresses are exchanged, and with them
the ports where there are any; an ICMP request is turned into its reply and
conversely, whatever the code, and other ICMP messages stay what they are. -/
structure Reverses (flow back : Flow Address) : Prop where
  proto : back.l4Proto = flow.l4Proto
  src : back.srcIp = flow.dstIp
  dst : back.dstIp = flow.srcIp
  ports : HasPorts flow.l4Proto → back.srcPort = flow.dstPort ∧ back.dstPort = flow.srcPort
  paired : flow.l4Proto = icmpProto → HasCounterpart pairs flow.icmpType →
    Counterparts pairs flow.icmpType back.icmpType
  single : OneWay icmpProto pairs flow →
    back.icmpType = flow.icmpType ∧ back.icmpCode = flow.icmpCode

/-- Protocol, addresses and ports agree, perhaps with the ends exchanged. -/
def SameFlow (flow other : Flow Address) : Prop :=
  flow.l4Proto = other.l4Proto ∧
    ((flow.srcIp = other.srcIp ∧ flow.srcPort = other.srcPort ∧
        flow.dstIp = other.dstIp ∧ flow.dstPort = other.dstPort) ∨
      (flow.srcIp = other.dstIp ∧ flow.srcPort = other.dstPort ∧
        flow.dstIp = other.srcIp ∧ flow.dstPort = other.srcPort))

end

lemma htons_lt : htons port < 65536 := by
  have small := port.toNat_lt
  unfold htons
  omega

lemma htons_inj (same : htons p = htons q) : p = q := by
  have small := p.toNat_lt
  have small' := q.toNat_lt
  unfold htons at same
  exact UInt16.toNat_inj.mp (by omega)

lemma u16Bytes_inj (small : m < 65536) (small' : n < 65536) (same : u16Bytes m = u16Bytes n) :
    m = n := by
  simp only [u16Bytes, List.cons.injEq, and_true] at same
  have low := congrArg UInt8.toNat same.1
  have high := congrArg UInt8.toNat same.2
  simp only [UInt8.toNat_ofNat'] at low high
  omega

lemma ipv4Bytes_inj (same : ipv4Bytes a = ipv4Bytes b) : a = b := by
  have value := congrArg beNat same
  unfold ipv4Bytes at value
  rw [beNat_beBytes_of_lt a.toNat_lt, beNat_beBytes_of_lt b.toNat_lt] at value
  exact UInt32.toNat_inj.mp value

lemma peerIsLessThan_separates : Separates peerIsLessThan where
  asymm := by
    intro a b forward
    have swap : compare b.1 a.1 = (compare a.1 b.1).swap := Std.OrientedCmp.eq_swap
    simp only [peerIsLessThan, swap]
    simp only [peerIsLessThan] at forward
    cases order : compare a.1 b.1 with
    | lt => rfl
    | gt => simp [order] at forward
    | eq =>
      simp only [order] at forward ⊢
      simp at forward ⊢
      omega
  connex := by
    intro a b forward backward
    have swap : compare b.1 a.1 = (compare a.1 b.1).swap := Std.OrientedCmp.eq_swap
    simp only [peerIsLessThan, swap] at forward backward
    cases order : compare a.1 b.1 with
    | lt => simp [order] at forward
    | gt => simp [order] at backward
    | eq =>
      simp only [order] at forward backward
      simp at forward backward
      exact Prod.ext (Std.LawfulEqCmp.eq_of_compare order) (by omega)

/-- The types the code knows are those of the table. -/
structure Knows (typeToCode : UInt8 → UInt8 → UInt8 × Bool) (pairs : List (UInt8 × UInt8)) :
    Prop where
  paired : ∀ type code other, Counterparts pairs type other → typeToCode type code = (other, false)
  single : ∀ type code, ¬HasCounterpart pairs type → typeToCode type code = (code, true)

lemma knows_v4 : Knows icmpTypeToCodeV4 typePairsV4 where
  paired := by
    intro type code other
    rintro (mem | mem) <;>
    · simp only [typePairsV4, mem_cons, not_mem_nil, Prod.mk.injEq, or_false] at mem
      rcases mem with ⟨rfl, rfl⟩ | ⟨rfl, rfl⟩ | ⟨rfl, rfl⟩ | ⟨rfl, rfl⟩ | ⟨rfl, rfl⟩ <;> rfl
  single := by
    intro type code none
    have eq : type = UInt8.ofNat type.toNat := UInt8.ofNat_toNat.symm
    unfold icmpTypeToCodeV4
    split
    all_goals first
      | rfl
      | next known =>
        rw [known] at eq
        subst eq
        exact absurd (by decide) none

lemma knows_v6 : Knows icmpTypeToCodeV6 typePairsV6 where
  paired := by
    intro type code other
    rintro (mem | mem) <;>
    · simp only [typePairsV6, mem_cons, not_mem_nil, Prod.mk.injEq, or_false] at mem
      rcases mem with ⟨rfl, rfl⟩ | ⟨rfl, rfl⟩ | ⟨rfl, rfl⟩ | ⟨rfl, rfl⟩ | ⟨rfl, rfl⟩ | ⟨rfl, rfl⟩
        <;> rfl
  single := by
    intro type code none
    have eq : type = UInt8.ofNat type.toNat := UInt8.ofNat_toNat.symm
    unfold icmpTypeToCodeV6
    split
    all_goals first
      | rfl
      | next known =>
        rw [known] at eq
        subst eq
        exact absurd (by decide) none

section

variable {Address : Type} {icmpProto : UInt8} {pairs : List (UInt8 × UInt8)}
  {typeToCode : UInt8 → UInt8 → UInt8 × Bool} {addressBytes : Address → Bytes} {width seed : Nat}

lemma Counterparts.symm (counterparts : Counterparts pairs one other) :
    Counterparts pairs other one := Or.symm counterparts

lemma adjustedPorts_oneWay (knows : Knows typeToCode pairs)
    (oneWay : OneWay icmpProto pairs flow) :
    adjustedPorts icmpProto typeToCode flow =
      (flow.icmpType.toUInt16, flow.icmpCode.toUInt16, true) := by
  unfold adjustedPorts
  rw [if_pos oneWay.1, knows.single _ _ oneWay.2]

variable {flow back : Flow Address}

/-- The adjusted ports of a flow with two ways are exchanged in its reverse. -/
lemma adjustedPorts_reverse (knows : Knows typeToCode pairs)
    (reverses : Reverses icmpProto pairs flow back) (twoWay : ¬OneWay icmpProto pairs flow) :
    ∃ p q, adjustedPorts icmpProto typeToCode flow = (p, q, false) ∧
      adjustedPorts icmpProto typeToCode back = (q, p, false) := by
  unfold adjustedPorts
  rw [reverses.proto]
  by_cases isIcmp : flow.l4Proto = icmpProto
  · have counterparts := reverses.paired isIcmp (not_not.mp fun none => twoWay ⟨isIcmp, none⟩)
    simp only [if_pos isIcmp, knows.paired _ _ _ counterparts, knows.paired _ _ _ counterparts.symm]
    exact ⟨_, _, rfl, rfl⟩
  · simp only [if_neg isIcmp]
    split
    · next ported =>
      obtain ⟨src, dst⟩ := reverses.ports ported
      exact ⟨_, _, rfl, by rw [src, dst]⟩
    · exact ⟨_, _, rfl, rfl⟩

/-- The buffer of a flow that is put in order. -/
lemma commBuf_eq {flow : Flow Address}
    (ports : adjustedPorts icmpProto typeToCode flow = (p, q, false)) :
    commBuf icmpProto typeToCode addressBytes seed flow =
      let peers := inOrder peerIsLessThan (addressBytes flow.srcIp, htons p)
        (addressBytes flow.dstIp, htons q)
      u16Bytes seed ++ peers.1.1 ++ peers.2.1 ++ finalBytes flow.l4Proto peers.1.2 peers.2.2 := by
  simp [commBuf, ports]

variable (knows : Knows typeToCode pairs)
include knows

lemma commBuf_reverse
    (reverses : Reverses icmpProto pairs flow back) (twoWay : ¬OneWay icmpProto pairs flow) :
    commBuf icmpProto typeToCode addressBytes seed back =
      commBuf icmpProto typeToCode addressBytes seed flow := by
  obtain ⟨p, q, forth, back_⟩ := adjustedPorts_reverse knows reverses twoWay
  rw [commBuf_eq forth, commBuf_eq back_, reverses.src, reverses.dst, reverses.proto,
    inOrder_comm peerIsLessThan_separates]

lemma commBuf_oneWay {flow : Flow Address} (oneWay : OneWay icmpProto pairs flow) :
    commBuf icmpProto typeToCode addressBytes seed flow =
      u16Bytes seed ++ addressBytes flow.srcIp ++ addressBytes flow.dstIp ++
        finalBytes flow.l4Proto (htons flow.icmpType.toUInt16) (htons flow.icmpCode.toUInt16) := by
  simp [commBuf, adjustedPorts_oneWay knows oneWay]

/-- A one-way message and its reverse have the same buffer only between one address
and itself. -/
lemma commBuf_reverse_oneWay_iff (size : ∀ a, (addressBytes a).length = width)
    (inj : ∀ {a b}, addressBytes a = addressBytes b → a = b)
    (reverses : Reverses icmpProto pairs flow back) (oneWay : OneWay icmpProto pairs flow) :
    commBuf icmpProto typeToCode addressBytes seed back =
      commBuf icmpProto typeToCode addressBytes seed flow ↔ flow.srcIp = flow.dstIp := by
  obtain ⟨type, code⟩ := reverses.single oneWay
  have backOneWay : OneWay icmpProto pairs back := by
    rw [OneWay, reverses.proto, type]
    exact oneWay
  rw [commBuf_oneWay knows oneWay, commBuf_oneWay knows backOneWay, reverses.src, reverses.dst,
    reverses.proto, type, code]
  constructor
  · intro same
    simp only [append_assoc, append_cancel_left_eq] at same
    exact inj (append_inj same (by rw [size, size])).1.symm
  · intro same
    rw [same]

lemma commBuf_reverse_iff (size : ∀ a, (addressBytes a).length = width)
    (inj : ∀ {a b}, addressBytes a = addressBytes b → a = b)
    (reverses : Reverses icmpProto pairs flow back) :
    commBuf icmpProto typeToCode addressBytes seed back =
      commBuf icmpProto typeToCode addressBytes seed flow ↔
      ¬(OneWay icmpProto pairs flow ∧ flow.srcIp ≠ flow.dstIp) := by
  by_cases oneWay : OneWay icmpProto pairs flow
  · rw [commBuf_reverse_oneWay_iff knows size inj reverses oneWay]
    exact ⟨fun same directed => directed.2 same,
      fun undirected => not_not.mp fun differ => undirected ⟨oneWay, differ⟩⟩
  · exact ⟨fun _ directed => oneWay directed.1, fun _ => commBuf_reverse knows reverses oneWay⟩

omit knows

/-- An address of the family and a port as they are compared. -/
def Encoded (width : Nat) (peer : Peer) : Prop := peer.1.length = width ∧ peer.2 < 65536

lemma peer_encoded (size : ∀ a, (addressBytes a).length = width) (address : Address)
    (port : UInt16) : Encoded width (addressBytes address, htons port) :=
  ⟨size address, htons_lt⟩

/-- What all buffers look like. -/
lemma commBuf_shape (size : ∀ a, (addressBytes a).length = width) {flow : Flow Address} :
    ∃ x y : Peer, x.1.length = width ∧ y.1.length = width ∧
      commBuf icmpProto typeToCode addressBytes seed flow =
        u16Bytes seed ++ x.1 ++ y.1 ++ finalBytes flow.l4Proto x.2 y.2 := by
  generalize ports : adjustedPorts icmpProto typeToCode flow = adjusted
  obtain ⟨p, q, oneWay⟩ := adjusted
  cases oneWay with
  | true =>
    refine ⟨(addressBytes flow.srcIp, htons p), (addressBytes flow.dstIp, htons q), ?_⟩
    refine ⟨size _, size _, ?_⟩
    simp [commBuf, ports]
  | false =>
    rw [commBuf_eq ports]
    have ends := inOrder_both peerIsLessThan (peer_encoded size flow.srcIp p)
      (peer_encoded size flow.dstIp q)
    exact ⟨_, _, ends.1.1, ends.2.1, rfl⟩

lemma finalBytes_length (l4Proto : UInt8) (srcPort dstPort : Nat) :
    (finalBytes l4Proto srcPort dstPort).length = 2 ∨
      (finalBytes l4Proto srcPort dstPort).length = 6 := by
  unfold finalBytes
  split
  · exact .inr rfl
  · exact .inl rfl

lemma commBuf_length (size : ∀ a, (addressBytes a).length = width) (flow : Flow Address) :
    (commBuf icmpProto typeToCode addressBytes seed flow).length = 2 * width + 4 ∨
      (commBuf icmpProto typeToCode addressBytes seed flow).length = 2 * width + 8 := by
  obtain ⟨x, y, first, second, shape⟩ := commBuf_shape size
  have rest := finalBytes_length flow.l4Proto x.2 y.2
  rw [shape]
  simp only [length_append, first, second, u16Bytes, length_cons, length_nil]
  omega

/-- The parts of a buffer. -/
lemma parts_inj {x y x' y' : Peer} (first : x.1.length = x'.1.length)
    (second : y.1.length = y'.1.length)
    (same : u16Bytes seed ++ x.1 ++ y.1 ++ finalBytes proto x.2 y.2 =
      u16Bytes seed ++ x'.1 ++ y'.1 ++ finalBytes proto' x'.2 y'.2) :
    x.1 = x'.1 ∧ y.1 = y'.1 ∧ finalBytes proto x.2 y.2 = finalBytes proto' x'.2 y'.2 := by
  simp only [append_assoc, append_cancel_left_eq] at same
  obtain ⟨address, rest⟩ := append_inj same first
  exact ⟨address, append_inj rest second⟩

lemma finalBytes_ported (ported : HasPorts proto) :
    finalBytes proto p q = [proto, 0] ++ (u16Bytes p ++ u16Bytes q) := by
  unfold finalBytes
  rw [if_pos (.inr (.inr ported))]

lemma adjustedPorts_ported (notIcmp : ¬HasPorts icmpProto) {flow : Flow Address}
    (ported : HasPorts flow.l4Proto) :
    adjustedPorts icmpProto typeToCode flow = (flow.srcPort, flow.dstPort, false) := by
  have other : flow.l4Proto ≠ icmpProto := by
    intro eq
    rw [eq] at ported
    exact notIcmp ported
  unfold adjustedPorts
  rw [if_neg other]
  exact if_pos ported

/-- The peers can be read off the buffer of a flow with ports. -/
lemma sameFlow_of_commBuf_eq (size : ∀ a, (addressBytes a).length = width)
    (inj : ∀ {a b}, addressBytes a = addressBytes b → a = b) (notIcmp : ¬HasPorts icmpProto)
    {flow : Flow Address} (ported : HasPorts flow.l4Proto)
    (same : commBuf icmpProto typeToCode addressBytes seed flow =
      commBuf icmpProto typeToCode addressBytes seed other) : SameFlow flow other := by
  have proto : flow.l4Proto = other.l4Proto := by
    obtain ⟨x, y, first, second, shape⟩ := commBuf_shape size
    obtain ⟨x', y', first', second', shape'⟩ := commBuf_shape size
    rw [shape, shape'] at same
    have rest := (parts_inj (first.trans first'.symm) (second.trans second'.symm) same).2.2
    exact (List.cons.inj rest).1
  have otherPorted : HasPorts other.l4Proto := proto ▸ ported
  rw [commBuf_eq (adjustedPorts_ported notIcmp ported),
    commBuf_eq (adjustedPorts_ported notIcmp otherPorted)] at same
  have mine := inOrder_both peerIsLessThan (peer_encoded size flow.srcIp flow.srcPort)
    (peer_encoded size flow.dstIp flow.dstPort)
  have theirs := inOrder_both peerIsLessThan (peer_encoded size other.srcIp other.srcPort)
    (peer_encoded size other.dstIp other.dstPort)
  obtain ⟨address1, address2, rest⟩ := parts_inj (mine.1.1.trans theirs.1.1.symm)
    (mine.2.1.trans theirs.2.1.symm) same
  rw [finalBytes_ported ported, finalBytes_ported otherPorted, proto, append_cancel_left_eq] at rest
  obtain ⟨port1, port2⟩ := append_inj rest rfl
  have peers := ends_of_inOrder_eq (Prod.ext
    (Prod.ext address1 (u16Bytes_inj mine.1.2 theirs.1.2 port1))
    (Prod.ext address2 (u16Bytes_inj mine.2.2 theirs.2.2 port2)))
  simp only [Prod.mk.injEq] at peers
  refine ⟨proto, peers.imp ?_ ?_⟩
  · rintro ⟨⟨src, srcPort⟩, dst, dstPort⟩
    exact ⟨inj src, htons_inj srcPort, inj dst, htons_inj dstPort⟩
  · rintro ⟨⟨src, srcPort⟩, dst, dstPort⟩
    exact ⟨inj src, htons_inj srcPort, inj dst, htons_inj dstPort⟩

end

section

variable {Address : Type} {addressBytes : Address → Bytes}

/-- The address and the port of an end as one number, in which the address decides. -/
def endNumber (peer : Peer) : Nat := beNat peer.1 * 65536 + beNat (u16Bytes peer.2)

/-- The buffer of a flow with ports as it is specified: first the end with the smaller
address or, for one address, with the smaller port. -/
def specifiedBuf (addressBytes : Address → Bytes) (flow : Flow Address) : Bytes :=
  let peers := inOrder (fun peer other => endNumber peer < endNumber other)
    (addressBytes flow.srcIp, htons flow.srcPort) (addressBytes flow.dstIp, htons flow.dstPort)
  u16Bytes 0 ++ peers.1.1 ++ peers.2.1 ++ finalBytes flow.l4Proto peers.1.2 peers.2.2

/-- The swapped ports are ordered as the ports are, unless the addresses decide. -/
def PortsOrdered (flow : Flow Address) : Prop :=
  flow.srcIp = flow.dstIp → (htons flow.srcPort < htons flow.dstPort ↔ flow.srcPort < flow.dstPort)

lemma beNat_htons : beNat (u16Bytes (htons port)) = port.toNat := by
  have small := port.toNat_lt
  have low : htons port % 256 = port.toNat / 256 := by unfold htons; omega
  have high : htons port / 256 = port.toNat % 256 := by unfold htons; omega
  simp only [u16Bytes, beNat, low, high, foldl_cons, foldl_nil, UInt8.toNat_ofNat']
  omega

lemma compare_digit (m n : Nat) (x y : UInt8) :
    compare (m * 256 + x.toNat) (n * 256 + y.toNat) = (compare m n).then (compare x y) := by
  have first := x.toNat_lt
  have second := y.toNat_lt
  have digit : compare x y = compare x.toNat y.toNat := by
    simp only [compare, compareOfLessAndEq, UInt8.lt_iff_toNat_lt, ← UInt8.toNat_inj]
  simp only [digit, Nat.compare_eq_ite_lt]
  repeat' split
  all_goals first | rfl | omega

/-- `memcmp` compares fields of one length as the numbers in them. -/
lemma compare_beNat (size : a.length = b.length) : compare (beNat a) (beNat b) = compare a b := by
  have digits (m n : Nat) : compare (a.foldl (fun acc b => acc * 256 + b.toNat) m)
      (b.foldl (fun acc b => acc * 256 + b.toNat) n) = (compare m n).then (compare a b) := by
    induction a generalizing b m n with
    | nil => simp [length_eq_zero_iff.mp size.symm]
    | cons x a ih =>
      cases b with
      | nil => cases size
      | cons y b =>
        simp only [foldl_cons, ih (Nat.succ.inj size), compare_digit, List.compare_cons_cons,
          Ordering.then_assoc]
  simpa [beNat] using digits 0 0

/-- The two orders agree on ends as far as the swapped ports are ordered as the ports. -/
lemma peerIsLessThan_eq_iff (size : a.length = b.length) (p q : UInt16) :
    peerIsLessThan (a, htons p) (b, htons q) =
        decide (endNumber (a, htons p) < endNumber (b, htons q)) ↔
      (a = b → (htons p < htons q ↔ p < q)) := by
  have order := compare_beNat size
  have small := p.toNat_lt
  have small' := q.toNat_lt
  simp only [peerIsLessThan, endNumber, beNat_htons]
  by_cases same : a = b
  · simp [same, UInt16.lt_iff_toNat_lt, decide_eq_decide]
  · have differ : beNat a ≠ beNat b := by
      intro equal
      rw [equal, Nat.compare_eq_eq.mpr rfl] at order
      exact same (Std.LawfulEqCmp.eq_of_compare order.symm)
    simp only [← order, Nat.compare_eq_lt, Nat.compare_eq_eq, differ, decide_false,
      Bool.false_and, Bool.or_false, decide_eq_decide, same, false_imp_iff, iff_true]
    omega

/-- Only equal ends can change places. -/
lemma ends_eq_of_swapped {x : Peer} (ported : HasPorts proto) (first : Encoded width x)
    (second : Encoded width y) (same : u16Bytes 0 ++ x.1 ++ y.1 ++ finalBytes proto x.2 y.2 =
      u16Bytes 0 ++ y.1 ++ x.1 ++ finalBytes proto y.2 x.2) : x = y := by
  obtain ⟨address, -, rest⟩ := parts_inj (first.1.trans second.1.symm)
    (second.1.trans first.1.symm) same
  rw [finalBytes_ported ported, finalBytes_ported ported, append_cancel_left_eq] at rest
  exact Prod.ext address (u16Bytes_inj first.2 second.2 (append_inj rest rfl).1)

lemma commBuf_specified_iff (size : ∀ a, (addressBytes a).length = width)
    (inj : ∀ {a b}, addressBytes a = addressBytes b → a = b) (notIcmp : ¬HasPorts icmpProto)
    (ported : HasPorts flow.l4Proto) :
    commBuf icmpProto typeToCode addressBytes 0 flow = specifiedBuf addressBytes flow ↔
      PortsOrdered flow := by
  have agree := peerIsLessThan_eq_iff ((size flow.srcIp).trans (size flow.dstIp).symm)
    flow.srcPort flow.dstPort
  have ordered : PortsOrdered flow ↔ _ :=
    Iff.trans ⟨fun order same => order (inj same), fun order same => order (by rw [same])⟩ agree.symm
  rw [commBuf_eq (adjustedPorts_ported notIcmp ported), specifiedBuf, ordered]
  generalize src : (addressBytes flow.srcIp, htons flow.srcPort) = x
  generalize dst : (addressBytes flow.dstIp, htons flow.dstPort) = y
  have one := src ▸ peer_encoded size flow.srcIp flow.srcPort
  have two := dst ▸ peer_encoded size flow.dstIp flow.dstPort
  constructor
  · intro same
    unfold inOrder at same
    cases forward : peerIsLessThan x y <;>
      cases specified : decide (endNumber x < endNumber y) <;>
      simp only [forward, specified, if_true, Bool.false_eq_true, if_false] at same ⊢
    · cases ends_eq_of_swapped ported two one same
      simp at specified
    · cases ends_eq_of_swapped ported one two same
      simp [peerIsLessThan] at forward
  · intro same
    simp only [inOrder, same]

end

/-- A flow of either version of IP. -/
inductive AnyFlow where
  | v4 (flow : Flow UInt32)
  | v6 (flow : Flow In6Addr)

namespace AnyFlow

/-- The buffer that is hashed. -/
def buffer : AnyFlow → Bytes
  | .v4 flow => flowV4Buf flow
  | .v6 flow => flowV6Buf flow

def IsReverse : AnyFlow → AnyFlow → Prop
  | .v4 flow, .v4 back => Reverses icmp typePairsV4 flow back
  | .v6 flow, .v6 back => Reverses icmpV6 typePairsV6 flow back
  | _, _ => False

/-- An ICMP message without a counterpart from one address to another. -/
def IsDirected : AnyFlow → Prop
  | .v4 flow => OneWay icmp typePairsV4 flow ∧ flow.srcIp ≠ flow.dstIp
  | .v6 flow => OneWay icmpV6 typePairsV6 flow ∧ flow.srcIp ≠ flow.dstIp

def IsPorted : AnyFlow → Prop
  | .v4 flow => HasPorts flow.l4Proto
  | .v6 flow => HasPorts flow.l4Proto

def IsSame : AnyFlow → AnyFlow → Prop
  | .v4 flow, .v4 other => SameFlow flow other
  | .v6 flow, .v6 other => SameFlow flow other
  | _, _ => False

lemma ipv4Bytes_length (ip : UInt32) : (ipv4Bytes ip).length = 4 := beBytes_length 4 _

lemma in6Addr_inj {a : In6Addr} (same : a.bytes = b.bytes) : a = b := by
  cases a
  cases b
  cases same
  rfl

lemma buffer_reverse_iff {flow back : AnyFlow} (reverse : flow.IsReverse back) :
    back.buffer = flow.buffer ↔ ¬flow.IsDirected := by
  cases flow with
  | v4 flow =>
    cases back with
    | v4 back => exact commBuf_reverse_iff knows_v4 ipv4Bytes_length ipv4Bytes_inj reverse
    | v6 back => exact reverse.elim
  | v6 flow =>
    cases back with
    | v4 back => exact reverse.elim
    | v6 back => exact commBuf_reverse_iff knows_v6 In6Addr.size in6Addr_inj reverse

lemma isSame_of_buffer_eq {flow : AnyFlow} (ported : flow.IsPorted)
    (same : flow.buffer = other.buffer) : flow.IsSame other := by
  have lengthV4 (f : Flow UInt32) : (AnyFlow.v4 f).buffer.length = 12 ∨
      (AnyFlow.v4 f).buffer.length = 16 := commBuf_length ipv4Bytes_length f
  have lengthV6 (f : Flow In6Addr) : (AnyFlow.v6 f).buffer.length = 36 ∨
      (AnyFlow.v6 f).buffer.length = 40 := commBuf_length In6Addr.size f
  have length := congrArg List.length same
  cases flow with
  | v4 flow =>
    cases other with
    | v4 other =>
      exact sameFlow_of_commBuf_eq ipv4Bytes_length ipv4Bytes_inj (by decide) ported same
    | v6 other =>
      have short := lengthV4 flow
      have long := lengthV6 other
      omega
  | v6 flow =>
    cases other with
    | v4 other =>
      have short := lengthV4 other
      have long := lengthV6 flow
      omega
    | v6 other => exact sameFlow_of_commBuf_eq In6Addr.size in6Addr_inj (by decide) ported same

end AnyFlow

/-- A flow and its reverse have the same buffer unless it is an ICMP message of a type
without a counterpart between two addresses; flows with ports have the same buffer
only if they are the same up to their direction. -/
theorem community_buffer_undirected (flow other : AnyFlow) :
    (flow.IsReverse other → (other.buffer = flow.buffer ↔ ¬flow.IsDirected)) ∧
      (flow.IsPorted → flow.buffer = other.buffer → flow.IsSame other) :=
  ⟨AnyFlow.buffer_reverse_iff, AnyFlow.isSame_of_buffer_eq⟩

/-- A TCP connection from 1.2.3.4, port 80, to 5.6.7.8, port 1000, and back. -/
def connection : Flow UInt32 := ⟨6, 0x01020304, 0x05060708, 80, 1000, 0, 0⟩

def connectionBack : Flow UInt32 := ⟨6, 0x05060708, 0x01020304, 1000, 80, 0, 0⟩

theorem community_buffer_undirected_sample :
    ((AnyFlow.v4 connectionBack).buffer = (AnyFlow.v4 connection).buffer ↔
        ¬(AnyFlow.v4 connection).IsDirected) ∧
      (AnyFlow.v4 connection).IsSame (.v4 connectionBack) := by
  constructor
  · apply (community_buffer_undirected (.v4 connection) (.v4 connectionBack)).1
    exact ⟨rfl, rfl, rfl, fun _ => ⟨rfl, rfl⟩, fun isIcmp => absurd isIcmp (by decide),
      fun oneWay => absurd oneWay.1 (by decide)⟩
  · exact (community_buffer_undirected (.v4 connection) (.v4 connectionBack)).2
      (.inr (.inr rfl)) (by decide +kernel)

/-- The ends of a flow with ports stand in the specified order exactly if the addresses
decide it or the swapped ports are ordered as the ports are. -/
theorem community_buffer_ordered_iff (v4 : Flow UInt32) (v6 : Flow In6Addr) :
    (HasPorts v4.l4Proto →
      (flowV4Buf v4 = specifiedBuf ipv4Bytes v4 ↔ PortsOrdered v4)) ∧
    (HasPorts v6.l4Proto →
      (flowV6Buf v6 = specifiedBuf In6Addr.bytes v6 ↔ PortsOrdered v6)) :=
  ⟨commBuf_specified_iff AnyFlow.ipv4Bytes_length ipv4Bytes_inj (by decide),
    commBuf_specified_iff In6Addr.size AnyFlow.in6Addr_inj (by decide)⟩

/-- A connection of 127.0.0.1 with itself, from port 1 to port 256, which comes first. -/
theorem swapped_ports_unordered :
    let flow : Flow UInt32 := ⟨6, 0x7F000001, 0x7F000001, 1, 256, 0, 0⟩
    (flowV4Buf flow).drop 12 = [1, 0, 0, 1] ∧
      (specifiedBuf ipv4Bytes flow).drop 12 = [0, 1, 1, 0] := by
  decide +kernel

/-- Host unreachable, from 1.2.3.4 to 5.6.7.8 and from 5.6.7.8 to 1.2.3.4. -/
def unreachable : Flow UInt32 := ⟨1, 0x01020304, 0x05060708, 0, 0, 3, 1⟩

def unreachableBack : Flow UInt32 := ⟨1, 0x05060708, 0x01020304, 0, 0, 3, 1⟩

theorem one_way_message_directed :
    (AnyFlow.v4 unreachable).IsReverse (.v4 unreachableBack) ∧
      (AnyFlow.v4 unreachableBack).buffer ≠ (AnyFlow.v4 unreachable).buffer := by
  constructor
  · exact ⟨rfl, rfl, rfl, fun ported => absurd ported (by decide),
      fun _ paired => absurd paired (by decide), fun _ => ⟨rfl, rfl⟩⟩
  · decide +kernel

end Ndpi.Guarantees.CommunityId
