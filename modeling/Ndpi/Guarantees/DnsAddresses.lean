import Ndpi.Guarantees.DnsOpt

/-!
# The addresses of a DNS response

The walk over the answers of a well-formed response without pointer records keeps the
first eight addresses, in the order of the answers. The flag `found` then says no more than
that eight were found.
-/
namespace Ndpi.Guarantees.DnsAddresses
open Lib Source.Dns Guarantees.DnsBounds Guarantees.DnsOpt List Scan

/-- An A record of four bytes or an AAAA record of sixteen. -/
def IsAddress (r : Record) : Prop :=
  r.type = 1 ∧ r.rdata.length = 4 ∨ r.type = 28 ∧ r.rdata.length = 16

instance (r : Record) : Decidable (IsAddress r) := inferInstanceAs (Decidable (_ ∨ _))

/-- What is kept of an address record: its bytes in 16 bytes of zeros, the family and the TTL. -/
def addressOf (r : Record) : Option RspAddr :=
  if IsAddress r then
    some ⟨r.rdata ++ List.replicate (16 - r.rdata.length) 0, r.rdata.length == 16, r.ttl.toNat⟩
  else none

/-- An address is kept as long as there is room for it. -/
def kept (addresses : List RspAddr) (r : Record) : List RspAddr :=
  match addressOf r with
  | none => addresses
  | some address =>
    if addresses.length < maxNumDnsRspAddresses then addresses ++ [address] else addresses

variable {addresses : List RspAddr}

lemma kept_length_le (few : addresses.length ≤ maxNumDnsRspAddresses) (r : Record) :
    (kept addresses r).length ≤ maxNumDnsRspAddresses := by
  unfold kept
  split
  · exact few
  · split
    · next room =>
      rw [length_append, length_singleton]
      exact room
    · exact few

/-- Keeping what there is room for is keeping the first eight. -/
lemma foldl_kept (records : List Record) (few : addresses.length ≤ maxNumDnsRspAddresses) :
    records.foldl kept addresses =
      (addresses ++ records.filterMap addressOf).take maxNumDnsRspAddresses := by
  induction records generalizing addresses with
  | nil => rw [foldl_nil, filterMap_nil, append_nil, take_of_length_le few]
  | cons r records ih =>
    rw [foldl_cons, ih (kept_length_le few r), filterMap_cons]
    unfold kept
    cases addressOf r with
    | none => rfl
    | some address =>
      dsimp only
      split
      · rw [append_assoc]
        rfl
      · next full =>
        have eight : addresses.length = maxNumDnsRspAddresses := by omega
        rw [take_left' eight, take_left' eight]

section

variable {p : Packet} {fuel x : Nat}

lemma get32_at (small : n < 4294967296) (stands : At p.payload x (beBytes 4 n)) :
    (get32 p x).Yields p.payloadPacketLen (· = n) := by
  have inside := stands.inside
  have value := stands.fetch
  rw [beBytes_length] at inside value
  apply (get32_yields inside).weaken
  intro result read
  rw [read, value]
  exact beNat_beBytes_of_lt small

/-- The flag says that there is no more room. -/
def Full (found : Bool) (flow : DnsFlow) : Prop :=
  found = decide (flow.rspAddr.length ≥ maxNumDnsRspAddresses)

variable (cfg : Settings) {r : Record}

lemma addToFpcDnsCache_rspAddr (inside : x + dataLen ≤ p.payloadPacketLen) :
    (addToFpcDnsCache p cfg x dataLen flow).Yields p.payloadPacketLen
      (·.rspAddr = flow.rspAddr) := by
  unfold addToFpcDnsCache
  split
  · apply yields_bind (fetch_yields (.inr inside))
    intro key _
    exact yields_pure rfl
  · exact yields_pure rfl

lemma kept_of_full {addresses : List RspAddr}
    (full : addresses.length ≥ maxNumDnsRspAddresses) (r : Record) :
    kept addresses r = addresses := by
  unfold kept
  split
  · rfl
  · exact if_neg (not_lt.mpr full)

lemma kept_of_not (other : ¬IsAddress r) (addresses : List RspAddr) :
    kept addresses r = addresses := by
  rw [kept, addressOf, if_neg other]

lemma useAddress_at (stands : At p.payload x r.rdata)
    (isAddress : IsAddress r) (full : Full found flow) :
    (useAddress p cfg x r.rdata.length r.ttl.toNat found flow).Yields p.payloadPacketLen fun used =>
      used.2.rspAddr = kept flow.rspAddr r ∧ Full used.1 used.2 := by
  have inside : x + r.rdata.length ≤ p.payloadPacketLen := stands.inside
  unfold useAddress
  split
  · next isFull =>
    have most : flow.rspAddr.length ≥ maxNumDnsRspAddresses :=
      of_decide_eq_true (full.symm.trans isFull)
    apply yields_bind (addToFpcDnsCache_rspAddr cfg inside)
    intro after same
    refine yields_pure ⟨?_, ?_⟩
    · rw [kept_of_full most]
      exact same
    · rw [Full, same]
      exact (decide_eq_true most).symm
  · next notFull =>
    have room : flow.rspAddr.length < maxNumDnsRspAddresses := by
      refine not_le.mp fun most => notFull ?_
      rw [full]
      exact decide_eq_true most
    have added : (addAddress p cfg x r.rdata.length r.ttl.toNat flow).Yields p.payloadPacketLen
        (·.rspAddr = kept flow.rspAddr r) := by
      unfold addAddress
      rw [if_pos room]
      apply yields_bind (fetch_yields (.inr inside))
      rintro bytes rfl
      apply yields_pure
      rw [stands.fetch, kept, addressOf, if_pos isAddress]
      dsimp only
      rw [if_pos room]
    apply yields_bind added
    intro grown grew
    apply yields_bind (addToFpcDnsCache_rspAddr cfg inside)
    intro after same
    refine yields_pure ⟨same.trans grew, ?_⟩
    rw [Full, same]

/-- An answer that is no pointer, with its data at this place. -/
lemma useAnswer_at (stands : At p.payload x r.rdata)
    (noPointer : r.type ≠ 12) (full : Full found flow) :
    (useAnswer p fuel cfg x r.type.toNat r.rdata.length r.ttl.toNat found flow).Yields
      p.payloadPacketLen fun used => used.2.rspAddr = kept flow.rspAddr r ∧ Full used.1 used.2 := by
  have number {t : UInt16} : r.type.toNat = t.toNat ↔ r.type = t := UInt16.toNat_inj
  have same : IsAddress r ↔ r.type.toNat = 1 ∧ r.rdata.length = 4 ∨
      r.type.toNat = 28 ∧ r.rdata.length = 16 :=
    or_congr (and_congr_left' number.symm) (and_congr_left' number.symm)
  have other : ¬r.type.toNat = 12 := fun pointer => noPointer (number.mp pointer)
  unfold useAnswer
  rw [if_neg other]
  split
  · next canonical =>
    refine yields_pure ⟨(kept_of_not ?_ _).symm, full⟩
    rw [same]
    omega
  · split
    · next address => exact useAddress_at cfg stands (same.mpr address) full
    · next other => exact yields_pure ⟨(kept_of_not (fun is => other (same.mp is)) _).symm, full⟩

/-- An answer from its class field on; the walk stands behind it if four more bytes follow. -/
lemma answerData_kept (stands : At p.payload x r.wire)
    (noPointer : r.type ≠ 12) (full : Full found flow) :
    (answerData p fuel cfg r.type.toNat ⟨x + r.name.wire.length + 2, found, flow⟩).Yields
      p.payloadPacketLen fun t => t.flow.rspAddr = kept flow.rspAddr r ∧ Full t.found t.flow ∧
        (x + r.wire.length + 4 ≤ p.payloadPacketLen → t.x = x + r.wire.length) := by
  have length := record_length r
  have inside : x + r.wire.length ≤ p.payloadPacketLen := stands.inside
  unfold answerData
  dsimp only
  split
  · next long =>
    have ttl : At p.payload (x + r.name.wire.length + 2 + 2) (beBytes 4 r.ttl.toNat) := by
      have there := stands.right.left.right.right
      simpa using there
    have data : At p.payload (x + r.name.wire.length + 2 + 8) r.rdata := by
      have there := stands.right.right.right
      simpa [Record.fields, add_assoc] using there
    apply yields_bind (get32_at r.ttl.toNat_lt ttl)
    rintro ttl rfl
    apply yields_bind (record_rdlength stands)
    rintro dataLen rfl
    rw [if_pos (by omega)]
    apply yields_bind (useAnswer_at cfg data noPointer full)
    rintro used ⟨addresses, still⟩
    exact yields_pure ⟨addresses, still, fun _ => by dsimp only; omega⟩
  · next short =>
    -- The data of the last record of the packet have fewer than four bytes.
    have other : ¬IsAddress r := by
      unfold IsAddress
      omega
    exact yields_pure ⟨(kept_of_not other _).symm, full, fun room => by omega⟩

/-- A turn keeps the address of its record; it leaves the loop when there is no more room. -/
lemma answerTurn_kept (enough : p.payloadPacketLen < fuel) {cfg : Settings}
    (stands : At p.payload s.x r.wire) (noPointer : r.type ≠ 12) (full : Full s.found s.flow) :
    (answerTurn p fuel cfg header s).Yields p.payloadPacketLen fun came =>
      ∃ t : AnswerPlace, t.flow.rspAddr = kept s.flow.rspAddr r ∧ Full t.found t.flow ∧
        (s.x + r.wire.length + 4 ≤ p.payloadPacketLen → t.x = s.x + r.wire.length) ∧
        (came = .stay t ∨ came = .leave t.done ∧ t.found = true) := by
  have length := record_length r
  have inside : s.x + r.wire.length ≤ p.payloadPacketLen := stands.inside
  have typeField : At p.payload (s.x + r.name.wire.length) (beBytes 2 r.type.toNat) :=
    stands.right.left.left
  apply yields_past_name stands.left enough (by omega)
  apply yields_bind (get16_at r.type.toNat_lt typeField)
  rintro rspType rfl
  apply yields_bind (get32_yields (by omega))
  intro rspTtl _
  have marked : ∀ flow : DnsFlow,
      (ndpiCheckDnsType flow r.type.toNat).rspAddr = flow.rspAddr := by
    intro flow
    unfold ndpiCheckDnsType
    split <;> rfl
  -- Before the data are read, only risks and the type of the answer change.
  have answered : ∀ flow : DnsFlow, flow.rspAddr = s.flow.rspAddr →
      (answerData p fuel cfg r.type.toNat ⟨s.x + r.name.wire.length + 2, s.found, flow⟩).Yields
        p.payloadPacketLen fun t => t.flow.rspAddr = kept s.flow.rspAddr r ∧ Full t.found t.flow ∧
          (s.x + r.wire.length + 4 ≤ p.payloadPacketLen → t.x = s.x + r.wire.length) := by
    intro flow same
    rw [← same]
    apply answerData_kept cfg stands noPointer
    rw [Full, same]
    exact full
  apply yields_bind (answered _ ?same)
  case same =>
    split
    · split <;> rfl
    · apply (marked _).trans
      split <;> rfl
  rintro after ⟨addresses, now, moved⟩
  split
  · next last =>
    exact yields_pure ⟨after, addresses, now, moved, .inr ⟨rfl, last.1⟩⟩
  · exact yields_pure ⟨after, addresses, now, moved, .inl rfl⟩

end

variable {p : Packet} {fuel : Nat}

/-- With no room left the rest of the answers change nothing. -/
lemma foldl_kept_of_full {addresses : List RspAddr}
    (full : addresses.length ≥ maxNumDnsRspAddresses) (records : List Record) :
    records.foldl kept addresses = addresses := by
  induction records with
  | nil => rfl
  | cons r records ih =>
    rw [foldl_cons, kept_of_full full]
    exact ih

lemma answers_kept (enough : p.payloadPacketLen < fuel)
    {answers : List Record} (noPointer : ∀ r ∈ answers, r.type ≠ 12)
    (stands : At p.payload s.x (answers.flatMap Record.wire)) (full : Full s.found s.flow) :
    (Scan.turns (answerTurn p fuel cfg header) AnswerPlace.done answers.length s).Yields
      p.payloadPacketLen fun walked =>
        walked.2.rspAddr = answers.foldl kept s.flow.rspAddr := by
  induction answers generalizing s with
  | nil => exact yields_pure rfl
  | cons r answers ih =>
    rw [flatMap_cons] at stands
    refine yields_bind (answerTurn_kept enough stands.left
      (noPointer r mem_cons_self) full) ?_
    rintro came ⟨t, addresses, now, moved, rfl | ⟨rfl, isFull⟩⟩
    · rw [foldl_cons, ← addresses]
      cases answers with
      | nil => exact yields_pure rfl
      | cons next others =>
        have long := record_long next
        have inside : s.x + r.wire.length + ((next :: others).flatMap Record.wire).length ≤
            p.payloadPacketLen := stands.right.inside
        rw [flatMap_cons, length_append] at inside
        refine ih (fun r later => noPointer r (mem_cons_of_mem _ later)) ?_ now
        rw [moved (by omega)]
        exact stands.right
    · have most : t.flow.rspAddr.length ≥ maxNumDnsRspAddresses :=
        of_decide_eq_true (now.symm.trans isFull)
      apply yields_pure
      rw [foldl_cons, ← addresses, foldl_kept_of_full most]
      rfl

/-- The walk over the answers of a response without pointer records keeps, of a flow
without addresses, the first eight A and AAAA records in their order, with their
families and times to live. -/
theorem processAnswers_keeps_first (m : Response) (start rest : Bytes)
    (short : (start ++ m.wire ++ rest).length < 65536) (noPointer : ∀ r ∈ m.answers, r.type ≠ 12)
    (cfg : Settings) (flow : DnsFlow) (fresh : flow.rspAddr = []) (fuel : Nat)
    (enough : (start ++ m.wire ++ rest).length < fuel) :
    (processAnswers ⟨start ++ m.wire ++ rest, short⟩ fuel cfg m.header
        (start.length + (m.questions.flatMap Question.wire).length) flow).Yields
      (start ++ m.wire ++ rest).length fun walked =>
        walked.2.rspAddr = (m.answers.filterMap addressOf).take 8 := by
  have whole : At (start ++ m.wire ++ rest) start.length m.wire := ⟨start, rest, rfl, rfl⟩
  have count : m.header.numAnswers.toNat = m.answers.length := UInt16.toNat_ofNat_of_lt m.counts.2.1
  have none : Full false flow := by
    rw [Full, fresh]
    rfl
  unfold processAnswers
  rw [count]
  refine Scan.Yields.weaken
    (answers_kept enough noPointer whole.right.left none) ?_
  intro walked addresses
  rw [addresses, fresh, foldl_kept _ (Nat.zero_le _)]
  rfl

/-- The answer `a` with two addresses and a text between them. -/
def mixedAnswers : Response :=
  ⟨[⟨letterName, 1, 1⟩],
    [glueRecord, ⟨pointerName, 16, 1, 300, [1, 0x61], by decide⟩,
      ⟨pointerName, 28, 1, 60, List.replicate 16 1, by decide⟩], [], [], by simp⟩

theorem mixedAnswers_kept :
    (processAnswers ⟨List.replicate 12 0 ++ mixedAnswers.wire ++ [], by decide⟩ 100 idleSettings
        mixedAnswers.header
        ((List.replicate 12 (0 : UInt8)).length +
          (mixedAnswers.questions.flatMap Question.wire).length) emptyDnsFlow).Yields
      (List.replicate 12 0 ++ mixedAnswers.wire ++ []).length fun walked =>
        walked.2.rspAddr = (mixedAnswers.answers.filterMap addressOf).take 8 :=
  processAnswers_keeps_first mixedAnswers (List.replicate 12 0) [] (by decide) (by decide)
    idleSettings emptyDnsFlow rfl 100 (by decide)

end Ndpi.Guarantees.DnsAddresses
