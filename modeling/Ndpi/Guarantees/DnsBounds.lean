import Ndpi.Source.Dns

/-!
# Safety of the walk through a DNS message

With fuel for every byte of the payload all parts of the walk end, and they read only
inside the payload: each read is below the check that dominates it, and the length of
a name that starts behind the payload is zero. The name that is copied stays within
its buffer.
-/
namespace Ndpi.Guarantees.DnsBounds
open Lib Source.Dns Scan Memory

variable {p : Packet} {fuel : Nat}

section

lemma fetch_yields (inside : count = 0 ∨ offset + count ≤ p.payloadPacketLen) :
    (p.fetch offset count).Yields p.payloadPacketLen
      (· = ((⟨p.payload, []⟩ : Memory).fetch offset count).val) :=
  yields_fetch inside

variable {offset : Nat}

lemma byte_yields (inside : offset < p.payloadPacketLen) :
    (p.byte offset).Yields p.payloadPacketLen (· = (p.payload[offset]?.getD 0).toNat) := by
  apply yields_bind (fetch_yields (.inr inside))
  intro bytes read
  apply yields_pure
  rw [read]
  simp [Memory.fetch, beNat]

lemma get16_yields (inside : offset + 2 ≤ p.payloadPacketLen) :
    (get16 p offset).Yields p.payloadPacketLen
      (· = beNat ((⟨p.payload, []⟩ : Memory).fetch offset 2).val) := by
  apply yields_bind (fetch_yields (.inr inside))
  intro bytes read
  exact yields_pure (congrArg beNat read)

lemma get32_yields (inside : offset + 4 ≤ p.payloadPacketLen) :
    (get32 p offset).Yields p.payloadPacketLen
      (· = beNat ((⟨p.payload, []⟩ : Memory).fetch offset 4).val) := by
  apply yields_bind (fetch_yields (.inr inside))
  intro bytes read
  exact yields_pure (congrArg beNat read)

end

lemma top_bits_iff (small : len < 256) : len &&& 0xC0 = 0xC0 ↔ 192 ≤ len := by
  have all : ∀ len < 256, len &&& 0xC0 = 0xC0 ↔ 192 ≤ len := by decide +kernel
  exact all len small

/-- The recursion moves over a byte at least. -/
lemma getNameLength_yields (enough : p.payloadPacketLen - i < fuel) :
    (getNameLength p fuel i).Safe p.payloadPacketLen := by
  induction fuel generalizing i with
  | zero => omega
  | succ fuel ih =>
    unfold getNameLength
    split
    · exact safe_pure
    · next within =>
      apply yields_bind (byte_yields (by omega))
      intro len read
      have small : len < 256 := by
        rw [read]
        exact UInt8.toNat_lt _
      split
      · exact safe_pure
      · split
        · exact safe_pure
        · next label =>
          rw [top_bits_iff small] at label
          exact safe_map (ih (by omega))

lemma dataLength_yields (enough : p.payloadPacketLen < fuel) :
    (dataLength p fuel x).Safe p.payloadPacketLen := by
  exact safe_map (getNameLength_yields (by omega))

/-- While a name is copied: the buffer keeps its size, the end of the name is at most
`maxLen`, and if that is inside the buffer, so was every store. -/
structure Fits (buffer : Memory) (maxLen : Nat) (s : NameState) : Prop where
  size : s.hostname.cells.length = buffer.cells.length
  below : s.j ≤ maxLen
  stray : maxLen < buffer.cells.length → s.hostname.stray = buffer.stray

lemma Fits.put (fits : Fits buffer maxLen s) (room : s.j < maxLen) (c : Nat) :
    Fits buffer maxLen (s.put c) := by
  refine ⟨?_, room, ?_⟩
  · unfold NameState.put
    rw [store_length, fits.size]
  · intro inside
    have here : s.j < s.hostname.cells.length := by
      rw [fits.size]
      omega
    unfold NameState.put
    rw [store_inside _ _ _ here]
    exact fits.stray inside

section

variable {buffer : Memory} {maxLen : Nat} {ignoreChecks : Bool}

lemma copyLabel_yields (fits : Fits buffer maxLen s) (inside : s.off + cl ≤ p.payloadPacketLen) :
    (copyLabel p maxLen ignoreChecks cl s).Yields p.payloadPacketLen fun t =>
      Fits buffer maxLen t ∧ s.off ≤ t.off := by
  induction cl generalizing s with
  | zero => exact yields_pure ⟨fits, le_refl _⟩
  | succ cl ih =>
    unfold copyLabel
    split
    · next room =>
      apply yields_bind (byte_yields (by omega))
      intro c _
      have moved : Fits buffer maxLen { s with off := s.off + 1 } :=
        ⟨fits.size, fits.below, fits.stray⟩
      have put : Fits buffer maxLen ({ s with off := s.off + 1 }.putChecked ignoreChecks c) ∧
          ({ s with off := s.off + 1 }.putChecked ignoreChecks c).off = s.off + 1 := by
        unfold NameState.putChecked
        split
        · exact ⟨moved.put room _, rfl⟩
        · have kept := moved.put room (if isprint c then 0x5F else 0x3F)
          exact ⟨⟨kept.size, kept.below, kept.stray⟩, rfl⟩
      refine (ih put.1 (by rw [put.2]; omega)).weaken ?_
      intro t both
      refine ⟨both.1, le_trans ?_ both.2⟩
      rw [put.2]
      omega
    · exact yields_pure ⟨fits, le_refl _⟩

/-- A label that is copied moves the offset. -/
lemma grabLabels_yields (fits : Fits buffer maxLen s)
    (enough : p.payloadPacketLen - s.off < fuel) :
    (grabLabels p maxLen ignoreChecks fuel s).Yields p.payloadPacketLen (Fits buffer maxLen) := by
  induction fuel generalizing s with
  | zero => omega
  | succ fuel ih =>
    unfold grabLabels
    split
    · next both =>
      apply yields_bind (byte_yields both.2)
      intro cl _
      split
      · exact yields_pure fits
      · split
        · exact yields_pure ⟨fits.size, Nat.zero_le _, fits.stray⟩
        · next copied =>
          have moved : Fits buffer maxLen { s with off := s.off + 1 } :=
            ⟨fits.size, fits.below, fits.stray⟩
          have dotted : Fits buffer maxLen (if s.j ≠ 0 ∧ s.j < maxLen then
                { s with off := s.off + 1 }.put 0x2E else { s with off := s.off + 1 }) ∧
              (if s.j ≠ 0 ∧ s.j < maxLen then { s with off := s.off + 1 }.put 0x2E
                else { s with off := s.off + 1 }).off = s.off + 1 := by
            split
            · exact ⟨moved.put both.1 _, rfl⟩
            · exact ⟨moved, rfl⟩
          refine yields_bind (copyLabel_yields dotted.1 ?_) ?_
          · rw [dotted.2]
            omega
          · intro t label
            rw [dotted.2] at label
            exact ih label.1 (by omega)
    · exact yields_pure fits

end

/-- The copy of a name ends; in a buffer of the size it is told it stays inside, and
leaves a zero byte at the end of the name. -/
lemma ndpiGrabDnsName_yields (enough : p.payloadPacketLen < fuel) :
    (ndpiGrabDnsName p fuel off hostname maxLen ignoreChecks).Yields p.payloadPacketLen fun name =>
      0 < maxLen → maxLen = hostname.cells.length →
        name.hostname.stray = hostname.stray ∧ name.j < maxLen ∧
          name.hostname.cells.length = maxLen ∧ name.hostname.cells[name.j]? = some 0 := by
  have start : Fits hostname (sub32 maxLen 1) ⟨off, hostname, 0, true⟩ :=
    ⟨rfl, Nat.zero_le _, fun _ => rfl⟩
  refine yields_bind (grabLabels_yields start
    (Nat.lt_of_le_of_lt (Nat.sub_le _ _) enough)) ?_
  intro s fits
  apply yields_pure
  intro room whole
  have less : sub32 maxLen 1 = maxLen - 1 := sub32_of_le room
  have below := fits.below
  have inside : s.j < s.hostname.cells.length := by
    rw [fits.size]
    omega
  refine ⟨?_, show s.j < maxLen by omega, ?_, ?_⟩
  · rw [store_inside _ _ _ inside]
    exact fits.stray (by omega)
  · rw [store_length, fits.size, whole]
  · rw [store_inside _ _ _ inside]
    exact List.getElem?_set_self inside

section

variable (enough : p.payloadPacketLen < fuel)

/-- Where only the reads matter there is nothing for the turns to keep. -/
lemma turns_yield {turn : σ → Scan (Turn σ Walked)} {done : σ → Walked}
    (each : ∀ s, (turn s).Safe p.payloadPacketLen) (s : σ) :
    (Scan.turns turn done count s).Safe p.payloadPacketLen := by
  refine yields_turns (fun _ => True) (fun _ _ => trivial) ?_ count trivial
  intro s _
  exact (each s).weaken fun _ _ => ⟨fun _ _ => trivial, fun _ _ => trivial⟩

include enough

variable (s : Place)

lemma queryTurn_yields :
    (queryTurn p fuel s).Safe p.payloadPacketLen := by
  apply yields_bind (dataLength_yields enough)
  intro dataLen _
  split
  · exact safe_pure
  · dsimp only
    split
    · exact safe_pure
    · exact safe_map (get16_yields (by omega))

variable (cfg : Settings) (header : Header) {x dataLen : Nat} (payloadOffset : Nat) (flow : DnsFlow)

lemma processQueries_yields :
    (processQueries p fuel header payloadOffset flow).Safe p.payloadPacketLen :=
  turns_yield (queryTurn_yields enough) _

omit enough in
lemma addAddress_yields (ttl : Nat) (flow : DnsFlow) (inside : x + dataLen ≤ p.payloadPacketLen) :
    (addAddress p cfg x dataLen ttl flow).Safe p.payloadPacketLen := by
  unfold addAddress
  split
  · exact safe_map (fetch_yields (.inr inside))
  · exact safe_pure

omit enough in
lemma addToFpcDnsCache_yields (flow : DnsFlow) (inside : x + dataLen ≤ p.payloadPacketLen) :
    (addToFpcDnsCache p cfg x dataLen flow).Safe p.payloadPacketLen := by
  unfold addToFpcDnsCache
  split
  · exact safe_map (fetch_yields (.inr inside))
  · exact safe_pure

omit enough in
lemma useAddress_yields (ttl : Nat) (found : Bool) (flow : DnsFlow)
    (inside : x + dataLen ≤ p.payloadPacketLen) :
    (useAddress p cfg x dataLen ttl found flow).Safe p.payloadPacketLen := by
  unfold useAddress
  split
  · exact safe_map (addToFpcDnsCache_yields cfg flow inside)
  · apply yields_bind (addAddress_yields cfg ttl flow inside)
    intro flow _
    exact safe_map (addToFpcDnsCache_yields cfg flow inside)

lemma usePointer_yields {x : Nat} (flow : DnsFlow)
    (inside : x ≤ p.payloadPacketLen) (after : 2 ≤ x) :
    (usePointer p fuel cfg x found flow).Safe p.payloadPacketLen := by
  apply yields_bind (get16_yields (by omega))
  intro ptrLen _
  split
  · exact safe_map (ndpiGrabDnsName_yields enough)
  · exact safe_pure

lemma useAnswer_yields (rspType ttl : Nat) (found : Bool) (flow : DnsFlow)
    (inside : x + dataLen ≤ p.payloadPacketLen) (after : 2 ≤ x) :
    (useAnswer p fuel cfg x rspType dataLen ttl found flow).Safe p.payloadPacketLen := by
  unfold useAnswer
  split
  · exact safe_pure
  · split
    · exact usePointer_yields enough cfg flow (by omega) after
    · split
      · exact useAddress_yields cfg ttl found flow inside
      · exact safe_pure

lemma answerData_yields (s : AnswerPlace) :
    (answerData p fuel cfg rspType s).Safe p.payloadPacketLen := by
  unfold answerData
  split
  · apply yields_bind (get32_yields (by omega))
    intro ttl _
    apply yields_bind (get16_yields (by omega))
    intro dataLen _
    dsimp only
    split
    · next inside =>
      exact safe_map
        (useAnswer_yields enough cfg rspType ttl s.found s.flow inside (by omega))
    · exact safe_pure
  · exact safe_pure

lemma answerTurn_yields (s : AnswerPlace) :
    (answerTurn p fuel cfg header s).Safe p.payloadPacketLen := by
  apply yields_bind (dataLength_yields enough)
  intro dataLen _
  split
  · exact safe_pure
  · dsimp only
    split
    · exact safe_pure
    · apply yields_bind (get16_yields (by omega))
      intro rspType _
      apply yields_bind (get32_yields (by omega))
      intro rspTtl _
      apply yields_bind (answerData_yields enough cfg _)
      intro after _
      split <;> exact safe_pure

lemma processAnswers_yields :
    (processAnswers p fuel cfg header payloadOffset flow).Safe p.payloadPacketLen :=
  turns_yield (answerTurn_yields enough cfg header) _

lemma authorityTurn_yields :
    (authorityTurn p fuel s).Safe p.payloadPacketLen := by
  unfold authorityTurn
  split
  · exact safe_pure
  · apply yields_bind (dataLength_yields enough)
    intro dataLen _
    split
    · exact safe_pure
    · dsimp only
      split
      · exact safe_pure
      · apply yields_bind (get16_yields (by omega))
        intro rspType _
        split
        · exact safe_map (get16_yields (by omega))
        · exact safe_pure

omit enough in
lemma optRecord_yields {x : Nat} (flow : DnsFlow) (inside : x + 8 ≤ p.payloadPacketLen) :
    (optRecord p x flow).Yields p.payloadPacketLen fun after =>
      after.edns0UdpPayloadSize = beNat ((⟨p.payload, []⟩ : Memory).fetch x 2).val := by
  apply yields_bind (get16_yields (by omega))
  intro size read
  apply yields_bind (get16_yields (by omega))
  intro rdataLen _
  split
  · apply yields_bind (get16_yields (by omega))
    intro optCode _
    apply yields_bind (get16_yields (by omega))
    intro optLen _
    split
    · apply yields_bind (fetch_yields (.inr (by omega)))
      intro opt _
      split
      · apply yields_bind (fetch_yields (.inr (by omega)))
        intro code _
        exact yields_pure read
      · exact yields_pure read
    · exact yields_pure read
  · exact yields_pure read

omit enough in
lemma useAdditional_yields {x : Nat} {flow : DnsFlow} (inside : x + 8 ≤ p.payloadPacketLen) :
    (useAdditional p x rspType flow).Yields p.payloadPacketLen fun after =>
      after.edns0UdpPayloadSize = if rspType = 41 then
        beNat ((⟨p.payload, []⟩ : Memory).fetch x 2).val else flow.edns0UdpPayloadSize := by
  unfold useAdditional
  split
  · exact optRecord_yields flow inside
  · exact yields_pure rfl

lemma additionalTurn_yields :
    (additionalTurn p fuel s).Safe p.payloadPacketLen := by
  unfold additionalTurn
  split
  · exact safe_pure
  · apply yields_bind (dataLength_yields enough)
    intro dataLen _
    split
    · exact safe_pure
    · dsimp only
      split
      · exact safe_pure
      · apply yields_bind (get16_yields (by omega))
        intro rspType _
        apply yields_bind (useAdditional_yields (by omega))
        intro flow _
        apply yields_bind (dataLength_yields enough)
        intro dataLen _
        split <;> exact safe_pure

lemma processAdditionals_yields :
    (processAdditionals p fuel header payloadOffset flow).Safe p.payloadPacketLen := by
  unfold processAdditionals
  split
  · exact safe_pure
  · apply yields_bind (turns_yield (authorityTurn_yields enough) _)
    rintro ⟨offset, flow⟩ _
    cases offset with
    | none => exact safe_pure
    | some x => exact turns_yield (additionalTurn_yields enough) _

end

/-- On every payload, from every offset and with all counts: with fuel for the bytes of
the payload every part of the walk comes to a result and reads only inside the
payload, and a name copied to a buffer stays in it and ends with a zero byte. -/
theorem dns_walk_safe (p : Packet) (fuel : Nat) (enough : p.payloadPacketLen < fuel)
    (cfg : Settings) (header : Header) (flow : DnsFlow) (offset : Nat) (hostname : Memory)
    (room : 0 < hostname.cells.length) (ignoreChecks : Bool) :
    ((processQueries p fuel header offset flow).Yields p.payloadPacketLen fun _ => True) ∧
    ((processAnswers p fuel cfg header offset flow).Yields p.payloadPacketLen fun _ => True) ∧
    ((processAdditionals p fuel header offset flow).Yields p.payloadPacketLen fun _ => True) ∧
    ((getNameLength p fuel offset).Yields p.payloadPacketLen fun _ => True) ∧
    (ndpiGrabDnsName p fuel offset hostname hostname.cells.length ignoreChecks).Yields
      p.payloadPacketLen fun name =>
        name.hostname.stray = hostname.stray ∧ name.j < hostname.cells.length ∧
          name.hostname.cells.length = hostname.cells.length ∧
          name.hostname.cells[name.j]? = some 0 := by
  refine ⟨processQueries_yields enough header offset flow,
    processAnswers_yields enough cfg header offset flow,
    processAdditionals_yields enough header offset flow,
    getNameLength_yields (Nat.lt_of_le_of_lt (Nat.sub_le _ _) enough), ?_⟩
  apply (ndpiGrabDnsName_yields enough).weaken
  intro name copied
  exact copied room rfl

/-- A query for `a.`. -/
def letterQuery : Packet :=
  ⟨[0, 1, 1, 0, 0, 1, 0, 0, 0, 0, 0, 0, 1, 0x61, 0, 0, 1, 0, 1], by decide⟩

theorem letter_query_safe :
    (ndpiGrabDnsName letterQuery 20 12 ⟨[1, 1], []⟩ 2 false).Yields 19 fun name =>
      name.hostname.stray = [] ∧ name.j < 2 ∧ name.hostname.cells.length = 2 ∧
        name.hostname.cells[name.j]? = some 0 :=
  (dns_walk_safe letterQuery 20 (by decide) ⟨0, false, false, false, 5, 0⟩ ⟨1, 0, 0, 0⟩
    ⟨0, 0, 0, [], ⟨[], []⟩, ⟨[], []⟩, [], []⟩ 12 ⟨[1, 1], []⟩ (by decide) false).2.2.2.2

end Ndpi.Guarantees.DnsBounds
