import Ndpi.Refinement.TlsFields
import Ndpi.Refinement.TlsMessage

/-!
# Handshake messages in DTLS fragments

The fragments of a handshake message are put together in the message buffer of the flow.
Records of at most 24 bytes are passed over, so a fragment of at most 12 bytes is lost,
and a message is handed over with a length of 16 bits.
-/
namespace Ndpi.Guarantees.DtlsFragments
open Lib Source.Tls Refinement.TlsFields Refinement.TlsMessage List Option

section

/-- The versions in the header of a record. -/
inductive DtlsVersion where
  | dtls10
  | dtls12
  | dtls13
  | openSsl
  deriving DecidableEq, Repr

def DtlsVersion.bytes : DtlsVersion → Bytes
  | .dtls10 => [0xfe, 0xff]
  | .dtls12 => [0xfe, 0xfd]
  | .dtls13 => [0xfe, 0xfc]
  | .openSsl => [0x01, 0x00]

/-- A part of the body, with what is free in the header of its record: the version, and
the epoch with the sequence number. -/
structure Fragment where
  version : DtlsVersion
  number : UInt64
  data : Bytes
  nonempty : 0 < data.length

structure DtlsMessage where
  type : UInt8
  messageSeq : UInt16
  body : Bytes
  nonempty : 0 < body.length
  narrow : body.length < 16777216

variable (m : DtlsMessage)

/-- The handshake header of a fragment of `count` bytes at this offset of the body. -/
def header (off count : Nat) : Bytes :=
  m.type :: (beBytes 3 m.body.length ++ beBytes 2 m.messageSeq.toNat ++ beBytes 3 off ++
    beBytes 3 count)

def record (off : Nat) (f : Fragment) : Bytes :=
  handshakeRecord :: (f.version.bytes ++ beBytes 8 f.number.toNat ++
    beBytes 2 (f.data.length + 12) ++ (header m off f.data.length ++ f.data))

/-- The records of consecutive fragments, from this offset of the body on. -/
def records : Nat → List Fragment → Bytes
  | _, [] => []
  | off, f :: rest => record m off f ++ records (off + f.data.length) rest

def dataOf (fragments : List Fragment) : Bytes := fragments.flatMap (·.data)

/-- A datagram of fragments; `fresh` is what memory allocated for it holds. -/
structure Arrival where
  fragments : List Fragment
  fresh : Nat → Nat → UInt8
  small : (fragments.map fun f => f.data.length + 25).sum < 32768

lemma header_length (off count : Nat) : (header m off count).length = 12 := by
  simp [header]

lemma DtlsVersion.bytes_length (version : DtlsVersion) : version.bytes.length = 2 := by
  cases version <;> rfl

lemma record_length (off : Nat) (f : Fragment) :
    (record m off f).length = f.data.length + 25 := by
  simp [record, header_length, DtlsVersion.bytes_length]
  omega

lemma records_length (off : Nat) :
    (records m off fragments).length = (fragments.map fun f => f.data.length + 25).sum := by
  induction fragments generalizing off with
  | nil => rfl
  | cons f rest ih => rw [records, length_append, record_length, ih, map_cons,
      sum_cons]

lemma Arrival.payload_small (off : Nat) (a : Arrival) :
    (records m off a.fragments).length < 65536 := by
  have small := a.small
  rw [records_length]
  omega

def Arrival.datagram (off : Nat) (a : Arrival) : Datagram :=
  ⟨records m off a.fragments, a.payload_small m off⟩

end

/-- What a flow keeps between its datagrams, and the payloads handed to
`processHandshakeTLSBlock` so far. -/
structure DtlsFlow where
  message : Message
  certificateProcessed : Bool
  handshakeBlocks : List Bytes

/-- The calls of `ndpi_search_dtls` for the datagrams that carry a message from this offset
of its body on, with the allocations granted. -/
def feed (certificateAfter : Bytes → Bool → Bool) (m : DtlsMessage) (fuel : Nat) :
    DtlsFlow → Nat → List Arrival → Option DtlsFlow
  | flow, _, [] => some flow
  | flow, off, a :: rest =>
    (searchDtls ⟨fun call => ⟨true, true, a.fresh call⟩, certificateAfter⟩ fuel (a.datagram m off)
      flow.message flow.certificateProcessed).bind fun (_, st) =>
        feed certificateAfter m fuel
          ⟨st.message, st.certificateProcessed, flow.handshakeBlocks ++ st.handshakeBlocks⟩
          (off + (dataOf a.fragments).length) rest

/-- The header of the first fragment and the whole body. -/
def DtlsMessage.whole (m : DtlsMessage) (arrivals : List Arrival) : Bytes :=
  header m 0 (((arrivals.flatMap (·.fragments)).head?.map (·.data.length)).getD 0) ++ m.body

section

variable {m : DtlsMessage} {off : Nat} {f : Fragment} (rest : Bytes)

lemma record_type : byteAt (record m off f ++ rest) 0 = handshakeRecord := rfl

/-- The record behind its content type. -/
lemma record_drop_1 :
    (record m off f ++ rest).drop 1 = f.version.bytes ++ (beBytes 8 f.number.toNat ++
      (beBytes 2 (f.data.length + 12) ++ (header m off f.data.length ++ (f.data ++ rest)))) := by
  rw [record, cons_append, drop_one, tail_cons]
  simp

lemma record_drop_11 :
    (record m off f ++ rest).drop 11 =
      beBytes 2 (f.data.length + 12) ++ (header m off f.data.length ++ (f.data ++ rest)) := by
  have atNumber : (record m off f ++ rest).drop 3 = _ :=
    drop_add_of_drop (record_drop_1 rest) f.version.bytes_length
  exact drop_add_of_drop atNumber (beBytes_length 8 _)

lemma record_drop_13 :
    (record m off f ++ rest).drop 13 = header m off f.data.length ++ (f.data ++ rest) :=
  drop_add_of_drop (record_drop_11 rest) (beBytes_length 2 _)

/-- The handshake header behind the type of the message. -/
lemma record_drop_14 :
    (record m off f ++ rest).drop 14 = beBytes 3 m.body.length ++
      (beBytes 2 m.messageSeq.toNat ++ (beBytes 3 off ++ (beBytes 3 f.data.length ++
        (f.data ++ rest)))) := by
  have fields : header m off f.data.length ++ (f.data ++ rest) = [m.type] ++
      (beBytes 3 m.body.length ++ (beBytes 2 m.messageSeq.toNat ++ (beBytes 3 off ++
        (beBytes 3 f.data.length ++ (f.data ++ rest))))) := by
    rw [header, cons_append]
    simp
  exact drop_add_of_drop ((record_drop_13 rest).trans fields) length_singleton

lemma record_drop_19 :
    (record m off f ++ rest).drop 19 =
      beBytes 3 off ++ (beBytes 3 f.data.length ++ (f.data ++ rest)) := by
  have atSeq : (record m off f ++ rest).drop 17 = _ :=
    drop_add_of_drop (record_drop_14 rest) (beBytes_length 3 _)
  exact drop_add_of_drop atSeq (beBytes_length 2 _)

lemma record_blockLen (short : f.data.length + 12 < 65536) :
    be16At (record m off f ++ rest) 11 = f.data.length + 12 :=
  be16At_field (record_drop_11 rest) short

lemma record_handshakeLen : be24At (record m off f ++ rest) 14 = m.body.length :=
  be24At_field (record_drop_14 rest) m.narrow

lemma record_fragOff (narrow : off < 16777216) :
    be24At (record m off f ++ rest) 19 = off :=
  be24At_field (record_drop_19 rest) narrow

lemma record_fragLen (short : f.data.length + 12 < 65536) :
    be24At (record m off f ++ rest) 22 = f.data.length := by
  have atLength : (record m off f ++ rest).drop 22 = _ :=
    drop_add_of_drop (record_drop_19 rest) (beBytes_length 3 _)
  exact be24At_field atLength (by omega)

lemma record_drop_25 : (record m off f ++ rest).drop 25 = f.data ++ rest := by
  have twice : (record m off f ++ rest).drop 25 = ((record m off f ++ rest).drop 13).drop 12 := by
    rw [drop_drop]
  rw [twice, record_drop_13, drop_left' (header_length m off _)]

lemma isDtls_record (short : f.data.length + 12 < 65536) (inside : f.data.length + 25 ≤ pLen) :
    isDtls (record m off f ++ rest) pLen = some (f.data.length + 12) := by
  have length := f.version.bytes_length
  have first : byteAt (record m off f ++ rest) 1 = byteAt f.version.bytes 0 :=
    (byteAt_of_drop (record_drop_1 rest) 0).trans (byteAt_append_left _ (by omega))
  have second : byteAt (record m off f ++ rest) 2 = byteAt f.version.bytes 1 :=
    (byteAt_of_drop (record_drop_1 rest) 1).trans (byteAt_append_left _ (by omega))
  unfold isDtls
  rw [record_blockLen rest short, if_neg (by omega), if_neg, if_neg (by omega)]
  rintro (unknown | unknown)
  · exact unknown (.inl (record_type rest))
  · rw [first, second] at unknown
    cases version : f.version <;> rw [version] at unknown <;> exact unknown (by decide)

end

section

variable {m : DtlsMessage} {off : Nat} {f : Fragment} {rest : Bytes} {env : DtlsEnv}
  {st : DtlsState}

/-- What a fragment adds to the buffer: the first one comes with its header. -/
def piece (m : DtlsMessage) (off : Nat) (f : Fragment) : Bytes :=
  if off = 0 then header m 0 f.data.length ++ f.data else f.data

/-- The sequence number that it is given. -/
def pieceSeq (off : Nat) : Nat := if off = 0 then 0 else off + 12

lemma piece_nonempty {m : DtlsMessage} {off : Nat} {f : Fragment} :
    0 < (piece m off f).length := by
  have nonempty := f.nonempty
  unfold piece
  split
  · rw [length_append]
    omega
  · exact nonempty

/-- The first piece has the header, the others count it in their sequence number. -/
lemma piece_end (m : DtlsMessage) (off : Nat) (f : Fragment) :
    pieceSeq off + (piece m off f).length = off + f.data.length + 12 := by
  unfold pieceSeq piece
  split
  · rw [length_append, header_length]
    omega
  · omega

lemma dtlsBody_record (env : DtlsEnv)
    (here : p.drop st.processed = record m off f ++ rest) (small : p.length < 32768) :
    st.processed + (f.data.length + 25) ≤ p.length ∧
      dtlsBody env p st =
        dtlsHandshake env p.length (record m off f ++ rest) (f.data.length + 12) st := by
  have nonempty := f.nonempty
  have length := congrArg List.length here
  rw [length_drop, length_append, record_length] at length
  have inside : st.processed + (f.data.length + 25) ≤ p.length := by omega
  refine ⟨inside, ?_⟩
  unfold dtlsBody
  rw [if_pos (by omega), here, isDtls_record rest (by omega) (by omega)]
  exact if_pos (record_type rest)

section

variable {pLen : Nat} (inside : st.processed + (f.data.length + 25) ≤ pLen)

include inside

lemma dtlsHandshake_small (few : f.data.length ≤ 12) :
    dtlsHandshake env pLen (record m off f ++ rest) (f.data.length + 12) st =
      .stay (st.advance (f.data.length + 12)) := by
  unfold dtlsHandshake
  rw [if_neg (by omega), if_neg (by omega)]

lemma dtlsHandshake_whole (many : 12 < f.data.length) (only : m.body.length = f.data.length) :
    dtlsHandshake env pLen (record m off f ++ rest) (f.data.length + 12) st =
      .stay (({ st with pending := true }.processHandshake env
        (header m off f.data.length ++ f.data)).advance (f.data.length + 12)) := by
  unfold dtlsHandshake
  rw [if_neg (by omega), if_pos (by omega), record_handshakeLen]
  have block : (header m off f.data.length ++ (f.data ++ rest)).take (f.data.length + 12) =
      header m off f.data.length ++ f.data := by
    rw [← append_assoc]
    exact take_left' (by rw [length_append, header_length]; omega)
  rw [if_pos (by omega), record_drop_13, block]

lemma dtlsHandshake_part (many : 12 < f.data.length) (more : f.data.length < m.body.length) :
    dtlsHandshake env pLen (record m off f ++ rest) (f.data.length + 12) st =
      dtlsFragment env (record m off f ++ rest) (f.data.length + 12) m.body.length
        { st with pending := true } := by
  unfold dtlsHandshake
  rw [if_neg (by omega), if_pos (by omega), record_handshakeLen]
  rw [if_neg (by omega), if_pos (by omega)]

end

lemma dtlsFragment_record (short : f.data.length + 12 < 65536) :
    dtlsFragment env (record m off f ++ rest) (f.data.length + 12) m.body.length st =
      match dtlsAddFragment env (record m off f ++ rest) st with
      | (rc, st) =>
        if rc = -1 then st.reject
        else if m.body.length + 12 = st.message.bufferUsed then
          .stay ((st.flush env).advance (f.data.length + 12))
        else .stay (st.advance (f.data.length + 12)) := by
  unfold dtlsFragment
  rw [record_fragLen rest short, if_neg (by omega)]

/-- The call of `ndpi_search_tls_memory`, in terms of its arguments. -/
lemma dtlsAddFragment_call (call : (if be24At block 19 = 0 then
        ((block.drop 13).take (be24At block 22 + 12), be24At block 19)
      else ((block.drop (13 + 12)).take (be24At block 22), be24At block 19 + 12)) =
        (payload, seq)) :
    dtlsAddFragment env block st =
      ((searchTlsMemory (env.heap st.memoryCalls) payload seq st.message).1,
        { st with
          message := (searchTlsMemory (env.heap st.memoryCalls) payload seq st.message).2
          memoryCalls := st.memoryCalls + 1 }) := by
  unfold dtlsAddFragment
  dsimp only
  rw [call]

lemma dtlsAddFragment_record (narrow : off < 16777216) (short : f.data.length + 12 < 65536) :
    dtlsAddFragment env (record m off f ++ rest) st =
      ((searchTlsMemory (env.heap st.memoryCalls) (piece m off f) (pieceSeq off) st.message).1,
        { st with
          message :=
            (searchTlsMemory (env.heap st.memoryCalls) (piece m off f) (pieceSeq off) st.message).2
          memoryCalls := st.memoryCalls + 1 }) := by
  apply dtlsAddFragment_call
  rw [record_fragOff rest narrow, record_fragLen rest short]
  unfold piece pieceSeq
  by_cases first : off = 0
  · subst first
    have block : (header m 0 f.data.length ++ (f.data ++ rest)).take (f.data.length + 12) =
        header m 0 f.data.length ++ f.data := by
      rw [← append_assoc]
      exact take_left' (by rw [length_append, header_length]; omega)
    rw [if_pos rfl, if_pos rfl, if_pos rfl, record_drop_13, block]
  · rw [if_neg first, if_neg first, if_neg first, record_drop_25, take_left' rfl]

/-- What a record does to the message buffer, and the payloads it hands over. -/
def takeFragment (fresh : Nat → UInt8) (m : DtlsMessage) (off : Nat) (f : Fragment)
    (message : Message) : Message × List Bytes :=
  if f.data.length ≤ 12 then (message, [])
  else if m.body.length = f.data.length then (message, [header m off f.data.length ++ f.data])
  else
    let message := (searchTlsMemory ⟨true, true, fresh⟩ (piece m off f) (pieceSeq off) message).2
    if m.body.length + 12 = message.bufferUsed then
      (.cleared, [((message.buffer.map (·.cells)).getD []).take (wrap16 message.bufferUsed)])
    else (message, [])

/-- One iteration on the record of a fragment that lies in the body. -/
lemma dtlsBody_takeFragment {fresh : Nat → Nat → UInt8}
    (granted : ∀ call, env.heap call = ⟨true, true, fresh call⟩)
    (within : off + f.data.length ≤ m.body.length)
    (here : p.drop st.processed = record m off f ++ rest) (small : p.length < 32768) :
    ∃ next, dtlsBody env p st = .stay next ∧
      next.processed = st.processed + (f.data.length + 25) ∧
      next.message = (takeFragment (fresh st.memoryCalls) m off f st.message).1 ∧
      next.handshakeBlocks =
        st.handshakeBlocks ++ (takeFragment (fresh st.memoryCalls) m off f st.message).2 := by
  have narrow := m.narrow
  obtain ⟨inside, turn⟩ := dtlsBody_record env here small
  have moved : wrap16 (st.processed + (f.data.length + 12 + 13)) =
      st.processed + (f.data.length + 25) := wrap16_of_lt (by omega)
  rw [turn]
  unfold takeFragment
  by_cases few : f.data.length ≤ 12
  · rw [dtlsHandshake_small inside few, if_pos few]
    exact ⟨_, rfl, moved, rfl, (append_nil _).symm⟩
  · rw [if_neg few]
    by_cases only : m.body.length = f.data.length
    · rw [dtlsHandshake_whole inside (by omega) only, if_pos only]
      exact ⟨_, rfl, moved, rfl, rfl⟩
    · rw [dtlsHandshake_part inside (by omega) (by omega), dtlsFragment_record (by omega),
        dtlsAddFragment_record (by omega) (by omega), if_neg only]
      dsimp only
      rw [granted, searchTlsMemory_granted, if_neg (by decide)]
      split
      · exact ⟨_, rfl, moved, rfl, rfl⟩
      · exact ⟨_, rfl, moved, rfl, (append_nil _).symm⟩

end

section

variable {m : DtlsMessage} {holds : Nat → List Fragment → Message → List Bytes → Prop}

/-- What every fragment keeps: a property of the bytes of the body before it, the fragments
still to come, the buffer and the payloads handed over so far. -/
def FragmentKeeps (m : DtlsMessage)
    (holds : Nat → List Fragment → Message → List Bytes → Prop) : Prop :=
  ∀ fresh off f later message blocks, m.body.drop off = f.data ++ dataOf later →
    f.data.length + 25 < 32768 → holds off (f :: later) message blocks →
      holds (off + f.data.length) later (takeFragment fresh m off f message).1
        (blocks ++ (takeFragment fresh m off f message).2)

variable (keeps : FragmentKeeps m holds)
include keeps

/-- The records of one datagram, by induction on them. -/
lemma FragmentKeeps.datagram {env : DtlsEnv} {off : Nat}
    {fragments later : List Fragment} {p : Bytes} {st : DtlsState} {prior : List Bytes}
    {fresh : Nat → Nat → UInt8} (granted : ∀ call, env.heap call = ⟨true, true, fresh call⟩)
    (start : holds off (fragments ++ later) st.message (prior ++ st.handshakeBlocks))
    (part : m.body.drop off = dataOf (fragments ++ later))
    (here : p.drop st.processed = records m off fragments) (small : p.length < 32768) :
    ∃ final, Ends (dtlsBody env p) st final ∧
      holds (off + (dataOf fragments).length) later final.message
        (prior ++ final.handshakeBlocks) := by
  induction fragments generalizing off st with
  | nil =>
    have ended : dtlsBody env p st = .leave st := by
      have length := congrArg List.length here
      rw [records, length_drop, length_nil] at length
      unfold dtlsBody
      rw [if_neg (by omega)]
    exact ⟨st, ends_of_leave ended, start⟩
  | cons f rest ih =>
    have data : dataOf (f :: rest) = f.data ++ dataOf rest := flatMap_cons
    have part' : m.body.drop off = f.data ++ dataOf (rest ++ later) := part
    have nonempty := f.nonempty
    have within := congrArg List.length part'
    rw [length_drop, length_append] at within
    obtain ⟨inside, -⟩ := dtlsBody_record env here small
    obtain ⟨next, turn, moved, message, blocks⟩ :=
      dtlsBody_takeFragment granted (by omega) here small
    have after := keeps (fresh st.memoryCalls) off f _ _ _ part' (by omega) start
    rw [← message, append_assoc, ← blocks] at after
    obtain ⟨final, ended, last⟩ := ih after
      (by rw [← drop_drop, part', drop_left' rfl])
      (by rw [moved, ← drop_drop, here, records, drop_left' (record_length m off f)])
    refine ⟨final, (ends_iff_of_stay turn final).mpr ended, ?_⟩
    rw [data, length_append, ← add_assoc]
    exact last

/-- All datagrams, by induction on them. -/
lemma FragmentKeeps.feed (certificateAfter : Bytes → Bool → Bool) {off : Nat}
    {arrivals : List Arrival} {flow : DtlsFlow}
    (start : holds off (arrivals.flatMap (·.fragments)) flow.message flow.handshakeBlocks)
    (part : m.body.drop off = dataOf (arrivals.flatMap (·.fragments))) :
    ∃ enough final,
      holds (off + (dataOf (arrivals.flatMap (·.fragments))).length) [] final.message
        final.handshakeBlocks ∧
      ∀ fuel, enough ≤ fuel →
        DtlsFragments.feed certificateAfter m fuel flow off arrivals = some final := by
  induction arrivals generalizing off flow with
  | nil => exact ⟨0, flow, start, fun _ _ => rfl⟩
  | cons a rest ih =>
    have data : dataOf ((a :: rest).flatMap (·.fragments)) =
        dataOf a.fragments ++ dataOf (rest.flatMap (·.fragments)) := by
      simp [dataOf]
    have small : (records m off a.fragments).length < 32768 := by
      rw [records_length]
      exact a.small
    obtain ⟨final, ⟨enough, ended⟩, after⟩ := @FragmentKeeps.datagram m holds keeps
      ⟨fun call => ⟨true, true, a.fresh call⟩, certificateAfter⟩ off a.fragments
      (rest.flatMap Arrival.fragments) (records m off a.fragments)
      (dtlsStart flow.message flow.certificateProcessed) flow.handshakeBlocks a.fresh
      (fun _ => rfl) (by rwa [dtlsStart, append_nil]) part rfl small
    rw [data] at part
    obtain ⟨enough', last, reached, fed⟩ := @ih (off + (dataOf a.fragments).length)
      ⟨final.message, final.certificateProcessed, flow.handshakeBlocks ++ final.handshakeBlocks⟩
      after (by rw [← drop_drop, part, drop_left' rfl])
    rw [data, length_append, ← add_assoc]
    refine ⟨max enough enough', last, reached, fun fuel most => ?_⟩
    have ran : searchDtls ⟨fun call => ⟨true, true, a.fresh call⟩, certificateAfter⟩ fuel
        (a.datagram m off) flow.message flow.certificateProcessed =
          some (dtlsReturn (records m off a.fragments).length final, final) := by
      unfold searchDtls
      rw [show (a.datagram m off).payload = records m off a.fragments from rfl,
        loop_mono (by omega : enough ≤ fuel) ended, map_some]
    rw [DtlsFragments.feed, ran, bind_some]
    exact fed fuel (by omega)

/-- The calls end in one flow, so what the fragments keep holds of it. -/
lemma FragmentKeeps.of_feed (fed : ∀ fuel, enough ≤ fuel →
      DtlsFragments.feed certificateAfter m fuel flow off arrivals = some final)
    (part : m.body.drop off = dataOf (arrivals.flatMap (·.fragments)))
    (start : holds off (arrivals.flatMap (·.fragments)) flow.message flow.handshakeBlocks) :
    holds (off + (dataOf (arrivals.flatMap (·.fragments))).length) [] final.message
      final.handshakeBlocks := by
  obtain ⟨enough', final', reached, fed'⟩ := keeps.feed certificateAfter start part
  have ended := (fed _ (le_max_left enough enough')).symm.trans
    (fed' _ (le_max_right enough enough'))
  obtain rfl := Option.some.inj ended
  exact reached

end

section

variable {m : DtlsMessage}

/-- The bytes in the buffer after `off` bytes of the body, if the first fragment has
`count`. -/
def gathered (m : DtlsMessage) (count off : Nat) : Bytes :=
  if off = 0 then [] else header m 0 count ++ m.body.take off

/-- Some bytes of the body are still to come. -/
structure Collecting (m : DtlsMessage) (count off : Nat) (message : Message)
    (blocks : List Bytes) : Prop where
  incomplete : off < m.body.length
  held : Held message (gathered m count off)
  next : message.nextSeq = pieceSeq off
  length : message.bufferLen ≤ 65536
  blocks : blocks = []

/-- After `off` bytes of the body the message is being collected, or it is complete and has
been handed over. -/
structure Reached (m : DtlsMessage) (count off : Nat) (later : List Fragment) (message : Message)
    (blocks : List Bytes) : Prop where
  many : ∀ f ∈ later, 12 < f.data.length
  first : off = 0 → ∀ f ∈ later.head?, count = f.data.length
  state : Collecting m count off message blocks ∨
    (off = m.body.length ∧ blocks = [header m 0 count ++ m.body])

lemma gathered_piece {count : Nat} (first : off = 0 → count = f.data.length)
    (part : (m.body.drop off).take f.data.length = f.data) :
    gathered m count off ++ piece m off f = gathered m count (off + f.data.length) := by
  have nonempty := f.nonempty
  unfold gathered piece
  rw [if_neg (by omega : ¬ off + f.data.length = 0), take_add, part]
  by_cases start : off = 0
  · rw [if_pos start, if_pos start, first start, start, take_zero, nil_append, nil_append]
  · rw [if_neg start, if_neg start, append_assoc]

lemma gathered_length (m : DtlsMessage) (count : Nat) (positive : 0 < off)
    (inside : off ≤ m.body.length) : (gathered m count off).length = off + 12 := by
  unfold gathered
  rw [if_neg (by omega), length_append, header_length, length_take]
  omega

/-- A fragment of more than 12 bytes that is not the whole body is appended to those before
it. -/
lemma Collecting.append {count : Nat} {blocks : List Bytes}
    (fresh : Nat → UInt8) (collecting : Collecting m count off message blocks)
    (first : off = 0 → count = f.data.length) (part : (m.body.drop off).take f.data.length = f.data)
    (within : off + f.data.length ≤ m.body.length) (short : m.body.length + 12 < 65536) :
    ∃ message' buffer,
      searchTlsMemory ⟨true, true, fresh⟩ (piece m off f) (pieceSeq off) message =
        (0, message') ∧
      Keeps message' buffer (gathered m count (off + f.data.length)) ∧
      message'.nextSeq = pieceSeq (off + f.data.length) ∧ message'.bufferLen ≤ 65536 := by
  have nonempty := f.nonempty
  have length := collecting.length
  have ending := piece_end m off f
  have narrow : max message.bufferLen firstBufferLen + (piece m off f).length + 1 <
      4294967296 := by
    unfold firstBufferLen
    omega
  obtain ⟨message', called, ⟨buffer, keeps⟩, next, length'⟩ :=
    searchTlsMemory_keeps fresh collecting.held (.inr collecting.next.symm)
      piece_nonempty narrow
  have joined := gathered_length m count (by omega : 0 < off + f.data.length) within
  have total : (gathered m count off).length + (piece m off f).length + 1 ≤ 65536 := by
    rw [← length_append, gathered_piece first part, joined]
    omega
  rw [gathered_piece first part] at keeps
  refine ⟨message', buffer, called, keeps, ?_, ?_⟩
  · rw [next, ending, wrap32_of_lt (by omega), pieceSeq, if_neg (by omega)]
  · have start : firstBufferLen ≤ 65536 := by decide
    dsimp only at length'
    omega

/-- The last fragment completes the message. -/
lemma reached_keeps (count : Nat) (short : m.body.length + 12 < 65536) :
    FragmentKeeps m (Reached m count) := by
  intro fresh off f later message blocks part room reached
  have taken : (m.body.drop off).take f.data.length = f.data := by
    rw [part, take_left' rfl]
  have within := congrArg List.length part
  rw [length_drop, length_append] at within
  have nonempty := f.nonempty
  have many := reached.many f mem_cons_self
  have first : off = 0 → count = f.data.length := fun start => reached.first start f rfl
  refine ⟨fun g member => reached.many g (mem_cons_of_mem f member),
    fun start => by omega, ?_⟩
  obtain collecting | ⟨complete, -⟩ := reached.state
  swap
  · omega
  unfold takeFragment
  rw [if_neg (by omega)]
  by_cases only : m.body.length = f.data.length
  · -- the whole body is in one record
    have start : off = 0 := by omega
    subst start
    have body : f.data = m.body := by
      rw [← taken, drop_zero, ← only, take_length]
    rw [if_pos only, collecting.blocks, first rfl, body]
    exact .inr ⟨by omega, rfl⟩
  · obtain ⟨message', buffer, called, keeps, next, length⟩ :=
      collecting.append fresh first taken (by omega) short
    have joined := gathered_length m count (by omega : 0 < off + f.data.length) (by omega)
    have used : message'.bufferUsed = off + f.data.length + 12 := keeps.used.trans joined
    rw [if_neg only, called]
    dsimp only
    by_cases last : m.body.length = off + f.data.length
    · have content : buffer.cells.take (wrap16 message'.bufferUsed) =
          header m 0 count ++ m.body := by
        obtain ⟨tail, cells⟩ := keeps.content
        rw [used, wrap16_of_lt (by omega), cells, take_left' joined, gathered,
          if_neg (by omega), ← last, take_length]
      rw [if_pos (by omega), collecting.blocks, keeps.present]
      exact .inr ⟨last.symm, congrArg (fun block => [block]) content⟩
    · rw [if_neg (by omega), collecting.blocks]
      exact .inl ⟨by omega, .inr ⟨buffer, keeps⟩, next, length, rfl⟩

end

section

variable {m : DtlsMessage}

/-- The bytes of the fragments that are not passed over. -/
def heard (fragments : List Fragment) : Nat :=
  (fragments.map fun f => if 12 < f.data.length then f.data.length else 0).sum

lemma heard_cons (f : Fragment) (rest : List Fragment) :
    heard (f :: rest) = (if 12 < f.data.length then f.data.length else 0) + heard rest := rfl

/-- A fragment that is passed over is missing. -/
lemma heard_lt_dataOf (member : f ∈ fragments) (few : f.data.length ≤ 12) :
    heard fragments < (dataOf fragments).length := by
  have le : ∀ others : List Fragment, heard others ≤ (dataOf others).length := by
    intro others
    induction others with
    | nil => exact le_refl _
    | cons g rest ih =>
      rw [heard_cons, dataOf, flatMap_cons, length_append]
      have tail : heard rest ≤ (rest.flatMap (·.data)).length := ih
      split <;> omega
  induction fragments with
  | nil => cases member
  | cons g rest ih =>
    rw [heard_cons, dataOf, flatMap_cons, length_append]
    have tail : heard rest ≤ (rest.flatMap (·.data)).length := le rest
    obtain rfl | member := mem_cons.mp member
    · have nonempty := f.nonempty
      rw [if_neg (by omega)]
      omega
    · have tail' : heard rest < (rest.flatMap (·.data)).length := ih member
      split <;> omega

/-- The buffer cannot be filled by the fragments still to come. -/
structure Starved (m : DtlsMessage) (off : Nat) (later : List Fragment) (message : Message)
    (blocks : List Bytes) : Prop where
  missing : message.bufferUsed + heard later < (if off = 0 then 0 else 12) + m.body.length
  blocks : blocks = []

lemma starved_keeps (m : DtlsMessage) : FragmentKeeps m (Starved m) := by
  intro fresh off f later message blocks part room starved
  have within := congrArg List.length part
  rw [length_drop, length_append] at within
  have nonempty := f.nonempty
  obtain ⟨missing, rfl⟩ := starved
  rw [heard_cons] at missing
  have later' : (if off + f.data.length = 0 then 0 else 12) = 12 := if_neg (by omega)
  unfold takeFragment
  by_cases few : f.data.length ≤ 12
  · rw [if_pos few]
    refine ⟨?_, rfl⟩
    rw [if_neg (by omega)] at missing
    rw [later']
    dsimp only
    split at missing <;> omega
  · rw [if_pos (by omega)] at missing
    have more : f.data.length < m.body.length := by
      split at missing <;> omega
    have ending := piece_end m off f
    have used := searchTlsMemory_used ⟨true, true, fresh⟩ (piece m off f) (pieceSeq off) message
    have bound : (searchTlsMemory ⟨true, true, fresh⟩ (piece m off f) (pieceSeq off)
        message).2.bufferUsed + heard later < 12 + m.body.length := by
      unfold pieceSeq at ending
      by_cases start : off = 0
      · rw [if_pos start] at missing ending
        omega
      · rw [if_neg start] at missing ending
        omega
    rw [if_neg few, if_neg (by omega)]
    rw [if_neg (by omega)]
    refine ⟨?_, rfl⟩
    rw [later']
    exact bound

/-- A payload is handed over with a length of 16 bits. -/
lemma narrow_keeps (m : DtlsMessage) :
    FragmentKeeps m fun _ _ _ blocks => ∀ block ∈ blocks, block.length < 65536 := by
  intro fresh off f later message blocks _ room narrow block member
  obtain old | new := mem_append.mp member
  · exact narrow block old
  unfold takeFragment at new
  split at new
  · cases new
  split at new
  · obtain rfl := mem_singleton.mp new
    rw [length_append, header_length]
    omega
  dsimp only at new
  split at new
  · obtain rfl := mem_singleton.mp new
    have kept : wrap16 (searchTlsMemory ⟨true, true, fresh⟩ (piece m off f) (pieceSeq off)
        message).2.bufferUsed < 65536 := Nat.mod_lt _ (by decide)
    rw [length_take]
    omega
  · cases new

end

/-- A message is handed over once and complete exactly if all of its fragments have more
than 12 bytes and its length with the header fits in 16 bits. -/
theorem dtls_message_delivered_iff (certificateAfter : Bytes → Bool → Bool) (m : DtlsMessage)
    (arrivals : List Arrival) (certificateProcessed : Bool)
    (whole : dataOf (arrivals.flatMap (·.fragments)) = m.body) :
    (∃ enough flow, flow.handshakeBlocks = [m.whole arrivals] ∧
      ∀ fuel, enough ≤ fuel →
        feed certificateAfter m fuel ⟨.cleared, certificateProcessed, []⟩ 0 arrivals = some flow) ↔
      (∀ f ∈ arrivals.flatMap (·.fragments), 12 < f.data.length) ∧
        m.body.length + 12 < 65536 := by
  have part : m.body.drop 0 = dataOf (arrivals.flatMap (·.fragments)) := whole.symm
  constructor
  · rintro ⟨enough, flow, blocks, fed⟩
    constructor
    · intro f member
      by_contra few
      have lost := heard_lt_dataOf member (by omega)
      rw [whole] at lost
      have missing : Message.cleared.bufferUsed + heard (arrivals.flatMap (·.fragments)) <
          (if 0 = 0 then 0 else 12) + m.body.length := by
        have unused : Message.cleared.bufferUsed = 0 := rfl
        rw [if_pos rfl, unused]
        omega
      have starved := (starved_keeps m).of_feed fed part ⟨missing, rfl⟩
      rw [blocks] at starved
      exact cons_ne_nil _ _ starved.blocks
    · have narrow := (narrow_keeps m).of_feed fed part (fun block member => nomatch member)
      have length := narrow (m.whole arrivals) (by rw [blocks]; exact mem_singleton_self _)
      rw [DtlsMessage.whole, length_append, header_length] at length
      omega
  · rintro ⟨many, short⟩
    have start : Reached m (((arrivals.flatMap (·.fragments)).head?.map (·.data.length)).getD 0) 0
        (arrivals.flatMap (·.fragments)) .cleared [] := by
      refine ⟨many, ?_, .inl ⟨m.nonempty, .inl ⟨rfl, rfl⟩, rfl, Nat.zero_le _, rfl⟩⟩
      intro _ f member
      rw [mem_def.mp member]
      rfl
    obtain ⟨enough, final, reached, fed⟩ := @FragmentKeeps.feed m _ (reached_keeps _ short)
      certificateAfter 0 arrivals ⟨.cleared, certificateProcessed, []⟩ start part
    refine ⟨enough, final, ?_, fed⟩
    obtain collecting | ⟨-, blocks⟩ := reached.state
    · have incomplete := collecting.incomplete
      rw [whole] at incomplete
      omega
    · exact blocks

lemma sampleNonempty : 0 < (List.replicate 26 (7 : UInt8)).length := by decide

lemma sampleNarrow : (List.replicate 26 (7 : UInt8)).length < 16777216 := by decide

/-- A certificate message with a body of 26 bytes. -/
def sampleMessage : DtlsMessage := ⟨11, 1, List.replicate 26 7, sampleNonempty, sampleNarrow⟩

lemma thirteenNonempty : 0 < (List.replicate 13 (7 : UInt8)).length := by decide

lemma fourteenNonempty : 0 < (List.replicate 14 (7 : UInt8)).length := by decide

lemma twelveNonempty : 0 < (List.replicate 12 (7 : UInt8)).length := by decide

def thirteen : Fragment := ⟨.dtls12, 3, List.replicate 13 7, thirteenNonempty⟩

def fourteen : Fragment := ⟨.dtls12, 3, List.replicate 14 7, fourteenNonempty⟩

def twelve : Fragment := ⟨.dtls12, 4, List.replicate 12 7, twelveNonempty⟩

lemma halvesSmall :
    ([thirteen, thirteen].map fun f => f.data.length + 25).sum < 32768 := by decide

lemma unevenSmall : ([fourteen, twelve].map fun f => f.data.length + 25).sum < 32768 := by decide

def halves : Arrival := ⟨[thirteen, thirteen], fun _ _ => 0, halvesSmall⟩

def uneven : Arrival := ⟨[fourteen, twelve], fun _ _ => 0, unevenSmall⟩

theorem halves_delivered :
    dataOf ([halves].flatMap (·.fragments)) = sampleMessage.body ∧
      ∃ enough flow, flow.handshakeBlocks = [sampleMessage.whole [halves]] ∧
        ∀ fuel, enough ≤ fuel →
          feed (fun _ _ => false) sampleMessage fuel ⟨.cleared, false, []⟩ 0 [halves] =
            some flow :=
  ⟨by decide, (dtls_message_delivered_iff (fun _ _ => false) sampleMessage [halves] false
    (by decide)).mpr (by decide)⟩

/-- The second fragment has 12 bytes: it is passed over, and nothing is handed over. -/
theorem small_fragment_lost :
    dataOf ([uneven].flatMap (·.fragments)) = sampleMessage.body ∧
      (feed (fun _ _ => false) sampleMessage 3 ⟨.cleared, false, []⟩ 0 [uneven]).map
        (·.handshakeBlocks) = some [] := by
  constructor
  · decide
  · rfl

end Ndpi.Guarantees.DtlsFragments
