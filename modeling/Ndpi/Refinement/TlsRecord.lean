import Ndpi.Refinement.TlsFields
import Ndpi.Source.Tls.Records

/-!
# Handshake records in the message buffer

A stream of handshake records as bytes, and what the record loop makes of a buffer
that holds the beginning of such a stream: it hands over the messages of the
records that are complete and keeps the rest.
-/
namespace Ndpi.Refinement.TlsRecord
open Lib Source Source.Tls Refinement.TlsFields List

structure HandshakeMessage where
  type : UInt8
  body : Bytes
  deriving DecidableEq

def HandshakeMessage.encode (m : HandshakeMessage) : Bytes :=
  m.type :: (beBytes 3 m.body.length ++ m.body)

def encodeAll (messages : List HandshakeMessage) : Bytes := messages.flatMap (·.encode)

/-- A record of whole handshake messages, of any minor version. -/
structure HandshakeRecord where
  minor : UInt8
  messages : List HandshakeMessage
  small : (encodeAll messages).length ≤ 16384

def HandshakeRecord.encode (r : HandshakeRecord) : Bytes :=
  [handshakeRecord, 0x03, r.minor] ++ beBytes 2 (encodeAll r.messages).length ++
    encodeAll r.messages

def stream (records : List HandshakeRecord) : Bytes := records.flatMap (·.encode)

/-- The messages of the records, in order. -/
def messagesOf (records : List HandshakeRecord) : List Bytes :=
  records.flatMap fun r => r.messages.map (·.encode)

/-- The payloads `processHandshakeTLSBlock` was called with. -/
def handedOver (effects : List TlsEffect) : List Bytes :=
  effects.filterMap fun
    | .processHandshakeBlock payload => some payload
    | _ => none

variable (m : HandshakeMessage)

lemma HandshakeMessage.encode_length :
    m.encode.length = m.body.length + 4 := by
  rw [encode, length_cons, length_append, beBytes_length]
  omega

variable (ctx : TlsContext) (r : HandshakeRecord)

lemma HandshakeRecord.encode_length : r.encode.length = (encodeAll r.messages).length + 5 := by
  rw [encode, length_append, length_append, beBytes_length]
  simp only [length_cons, length_nil]
  omega

/-- The fields of a message at the start of some bytes. -/
lemma HandshakeMessage.fields (rest : Bytes) (small : m.body.length < 65536) :
    Tls.byteAt (m.encode ++ rest) 1 = 0 ∧ be24At (m.encode ++ rest) 1 = m.body.length := by
  have high : Tls.byteAt (m.encode ++ rest) 1 = UInt8.ofNat (m.body.length / 256 / 256) := rfl
  have none : m.body.length / 256 / 256 = 0 := by omega
  have zero : Tls.byteAt (m.encode ++ rest) 1 = 0 := by rw [high, none]; rfl
  have middle : Tls.byteAt (m.encode ++ rest) 2 = UInt8.ofNat (m.body.length / 256) := rfl
  have low : Tls.byteAt (m.encode ++ rest) 3 = UInt8.ofNat m.body.length := rfl
  refine ⟨zero, ?_⟩
  rw [be24At, be16At, zero, middle, low, be16_digits small]
  exact Nat.zero_add _

/-- The fields of a record at the start of some bytes. -/
lemma HandshakeRecord.fields (rest : Bytes) :
    Tls.byteAt (r.encode ++ rest) 0 = handshakeRecord ∧ Tls.byteAt (r.encode ++ rest) 1 = 0x03 ∧
      be16At (r.encode ++ rest) 3 + 5 = r.encode.length := by
  have small := r.small
  have high : Tls.byteAt (r.encode ++ rest) 3 =
      UInt8.ofNat ((encodeAll r.messages).length / 256) := rfl
  have low : Tls.byteAt (r.encode ++ rest) 4 = UInt8.ofNat (encodeAll r.messages).length := rfl
  refine ⟨rfl, rfl, ?_⟩
  rw [be16At, high, low, be16_digits (by omega), r.encode_length]

lemma HandshakeRecord.encode_drop (rest : Bytes) :
    (r.encode ++ rest).drop 5 = encodeAll r.messages ++ rest := rfl

/-- The buffer starts with these bytes and no more of it is in use. -/
structure Holds (st : TlsState) (bytes : Bytes) : Prop where
  used : st.bufferUsed = bytes.length
  content : ∃ tail, st.buffer = bytes ++ tail

variable {st : TlsState}

lemma Holds.inside (held : Holds st bytes) : st.bufferUsed ≤ st.buffer.length := by
  obtain ⟨tail, content⟩ := held.content
  rw [held.used, content, length_append]
  omega

/-- What the loops have done to a state: the messages of `records` were handed over
and nothing else changed but the buffer's content, which is now `left`. -/
structure HandedOver (st st' : TlsState) (messages : List Bytes) : Prop where
  client : st'.changeCipherFromClient = st.changeCipherFromClient
  server : st'.changeCipherFromServer = st.changeCipherFromServer
  size : st'.buffer.length = st.buffer.length
  messages : handedOver st'.effects = handedOver st.effects ++ messages

lemma HandedOver.refl (st : TlsState) : HandedOver st st [] :=
  ⟨rfl, rfl, rfl, (append_nil _).symm⟩

lemma HandedOver.trans (ab : HandedOver a b first) (bc : HandedOver b c second) :
    HandedOver a c (first ++ second) :=
  ⟨bc.client.trans ab.client, bc.server.trans ab.server, bc.size.trans ab.size, by
    rw [bc.messages, ab.messages, append_assoc]⟩

lemma HandedOver.changeCipher {st st' : TlsState} {messages : List Bytes}
    (handed : HandedOver st st' messages) (ctx : TlsContext) :
    st'.changeCipher ctx = st.changeCipher ctx := by
  rw [TlsState.changeCipher, TlsState.changeCipher, handed.client, handed.server]

/-- The inner loop hands over the messages from its offset on, one by one. -/
lemma blocks_handOver (len : Nat) (messages : List HandshakeMessage) (st : TlsState)
    (processed : Nat) (rest : Bytes) (plain : st.changeCipher ctx = false)
    (here : st.buffer.drop processed = encodeAll messages ++ rest)
    (whole : processed + (encodeAll messages).length = len) (small : len < 65536)
    (inside : len ≤ st.bufferUsed) :
    ∃ st', (∀ r, Ends (tlsBody ctx) (.blocks len processed, st) r ↔
        Ends (tlsBody ctx) (.blocks len len, st') r) ∧
      st'.buffer = st.buffer ∧ st'.bufferUsed = st.bufferUsed ∧
      HandedOver st st' (messages.map (·.encode)) := by
  induction messages generalizing st processed with
  | nil =>
    have same : processed = len := whole
    rw [same]
    exact ⟨st, fun _ => Iff.rfl, rfl, rfl, .refl st⟩
  | cons m later ih =>
    have split : encodeAll (m :: later) = m.encode ++ encodeAll later := flatMap_cons
    have size := m.encode_length
    rw [split, length_append] at whole
    rw [split, append_assoc] at here
    have fields := m.fields (encodeAll later ++ rest) (by omega)
    rw [← here, be24At_drop, byteAt_drop] at fields
    have payload : blockPayloadLen st processed = m.encode.length := by
      rw [blockPayloadLen, fields.2, min_eq_left (by omega), wrap16_of_lt (by omega), size]
    let next : TlsState := { st with effects := st.effects ++ blockEffects st processed }
    have turn : tlsBody ctx (.blocks len processed, st) =
        .stay (.blocks len (processed + m.encode.length), next) := by
      simp only [tlsBody, blockBody]
      rw [if_pos (by omega), plain, if_neg (by decide),
        if_neg (by rw [fields.1, fields.2]; simp; omega), payload, if_neg (by omega)]
    have handed : HandedOver st next [m.encode] := by
      refine ⟨rfl, rfl, rfl, ?_⟩
      have taken : (st.buffer.drop processed).take (blockPayloadLen st processed) = m.encode := by
        rw [payload, here, take_left']
        rfl
      simp [next, blockEffects, taken, handedOver]
    have after : next.buffer.drop (processed + m.encode.length) = encodeAll later ++ rest := by
      rw [← drop_drop, here, drop_left']
      rfl
    obtain ⟨st', ends, buffer, used, rest⟩ := ih next (processed + m.encode.length)
      ((handed.changeCipher ctx).trans plain) after (by omega) inside
    refine ⟨st', fun r => (ends_iff_of_stay turn r).trans (ends r), buffer, used, ?_⟩
    exact handed.trans rest

/-- The end of a record that the buffer holds with more bytes behind it. -/
lemma endRecord_holds (held : Holds st (record ++ bytes)) (some : 0 < record.length) :
    ∃ st', Holds st' bytes ∧ HandedOver st st' [] ∧
      endRecord false record.length st =
        if bytes = [] then .leave (false, st') else .stay (.records, st') := by
  obtain ⟨tail, content⟩ := held.content
  have used := held.used
  have inside := held.inside
  rw [length_append] at used
  have left : sub32 st.bufferUsed record.length = bytes.length := by
    rw [sub32_of_le (by omega)]
    omega
  by_cases empty : bytes = []
  · subst empty
    refine ⟨{ st with bufferUsed := 0 }, ⟨rfl, st.buffer, rfl⟩,
      ⟨rfl, rfl, rfl, (append_nil _).symm⟩, ?_⟩
    rw [endRecord, left, if_pos rfl]
    rfl
  · have more : bytes.length > 0 := length_pos_iff.mpr empty
    refine ⟨{ st with
        buffer := (st.buffer.drop record.length).take bytes.length ++ st.buffer.drop bytes.length
        bufferUsed := bytes.length }, ⟨rfl, st.buffer.drop bytes.length, ?_⟩,
      ⟨rfl, rfl, ?_, (append_nil _).symm⟩, ?_⟩
    · rw [content, append_assoc, drop_left', take_left']
      · rfl
      · rfl
    · rw [length_append, length_take, length_drop, length_drop]
      omega
    · rw [endRecord, left, if_neg empty]
      simp only [if_pos more]
      rfl

/-- The record loop at the start of a handshake record that is complete or not. -/
lemma recordBody_handshake (st : TlsState) (header : 5 ≤ st.bufferUsed)
    (type : Tls.byteAt st.buffer 0 = handshakeRecord) (version : Tls.byteAt st.buffer 1 = 0x03) :
    recordBody ctx st =
      if st.recordLen > st.bufferUsed then .leave (false, st)
      else if st.recordLen ≥ 9 then .stay (.blocks st.recordLen 5, st)
      else endRecord false st.recordLen st := by
  have checked : checkTlsTypeAndVersion st.buffer (wrap16 st.bufferUsed) = true := by
    simp [checkTlsTypeAndVersion, type, version, handshakeRecord]
  unfold recordBody
  rw [if_neg (by omega), checked, if_neg (by decide)]
  simp [type]

/-- A complete record is handed over and taken off the buffer. -/
lemma record_handOver (st : TlsState) (held : Holds st (r.encode ++ bytes))
    (plain : st.changeCipher ctx = false) :
    ∃ st', Holds st' bytes ∧ HandedOver st st' (r.messages.map (·.encode)) ∧
      (bytes = [] → Ends (tlsBody ctx) (.records, st) (false, st')) ∧
      (bytes ≠ [] → ∀ result, Ends (tlsBody ctx) (.records, st') result →
        Ends (tlsBody ctx) (.records, st) result) := by
  obtain ⟨tail, content⟩ := held.content
  have used := held.used
  have size := r.encode_length
  have small := r.small
  rw [length_append] at used
  rw [append_assoc] at content
  obtain ⟨type, version, field⟩ := r.fields (bytes ++ tail)
  rw [← content] at type version field
  have len : st.recordLen = r.encode.length := field
  have body := recordBody_handshake ctx st (by omega) type version
  rw [if_neg (by omega), len] at body
  have some : 0 < r.encode.length := by omega
  by_cases long : r.encode.length ≥ 9
  · rw [if_pos long] at body
    obtain ⟨blocks, ends, buffer, blocksUsed, handed⟩ := blocks_handOver ctx r.encode.length
      r.messages st 5 (bytes ++ tail) plain (by rw [content]; exact r.encode_drop _)
      (by omega) (by omega) (by omega)
    have heldBlocks : Holds blocks (r.encode ++ bytes) :=
      ⟨blocksUsed.trans held.used, buffer ▸ held.content⟩
    obtain ⟨st', left, taken, ended⟩ := endRecord_holds heldBlocks some
    have last : tlsBody ctx (.blocks r.encode.length r.encode.length, blocks) =
        endRecord false r.encode.length blocks := by
      simp only [tlsBody, blockBody]
      rw [if_neg (by omega)]
    rw [ended] at last
    refine ⟨st', left, by simpa using handed.trans taken, fun empty => ?_, fun more result => ?_⟩
    · rw [ends_iff_of_stay body, ends]
      rw [if_pos empty] at last
      exact ends_of_leave last
    · rw [if_neg more] at last
      intro later
      rw [ends_iff_of_stay body, ends]
      exact (ends_iff_of_stay last result).mpr later
  · rw [if_neg long] at body
    have none : r.messages = [] := by
      cases messages : r.messages with
      | nil => rfl
      | cons m later =>
        have first := m.encode_length
        rw [messages, encodeAll, flatMap_cons, length_append] at size
        omega
    obtain ⟨st', left, taken, ended⟩ := endRecord_holds held some
    rw [ended] at body
    rw [none]
    refine ⟨st', left, taken, fun empty => ?_, fun more result => ?_⟩
    · rw [if_pos empty] at body
      exact ends_of_leave body
    · rw [if_neg more] at body
      exact (ends_iff_of_stay body result).mpr

/-- What is left in the buffer is less than the next record. -/
def Unfinished : List HandshakeRecord → Bytes → Prop
  | [], left => left = []
  | r :: _, left => left.length < r.encode.length

lemma unfinished_nil (records : List HandshakeRecord) : Unfinished records [] := by
  cases records with
  | nil => rfl
  | cons r later =>
    show 0 < r.encode.length
    rw [r.encode_length]
    omega

/-- The loop waits for the rest of a record that is not complete. -/
lemma records_wait (start : bytes ++ rest = r.encode ++ later)
    (held : Holds st bytes) (short : bytes.length < r.encode.length) :
    Ends (tlsBody ctx) (.records, st) (false, st) := by
  obtain ⟨tail, content⟩ := held.content
  have used := held.used
  apply ends_of_leave
  by_cases header : 5 ≤ st.bufferUsed
  · have same : ∀ i, i < 5 → Tls.byteAt st.buffer i = Tls.byteAt (r.encode ++ later) i := by
      intro i low
      rw [content, byteAt_append_left _ (by omega), ← start, byteAt_append_left _ (by omega)]
    obtain ⟨type, version, field⟩ := r.fields later
    have len : st.recordLen = r.encode.length := by
      rw [TlsState.recordLen, be16At, same 3 (by decide), same 4 (by decide)]
      exact field
    rw [tlsBody, recordBody_handshake ctx st header ((same 0 (by decide)).trans type)
      ((same 1 (by decide)).trans version), if_pos (by omega)]
  · rw [tlsBody, recordBody, if_pos (by omega)]

/-- From the beginning of a stream in the buffer, the record loop hands over the
messages of the complete records and keeps the rest. -/
lemma records_handOver (todo : List HandshakeRecord) (bytes rest : Bytes) (st : TlsState)
    (start : bytes ++ rest = stream todo) (held : Holds st bytes)
    (plain : st.changeCipher ctx = false) :
    ∃ now later left st', todo = now ++ later ∧ bytes = stream now ++ left ∧
      Unfinished later left ∧ Ends (tlsBody ctx) (.records, st) (false, st') ∧ Holds st' left ∧
      HandedOver st st' (messagesOf now) := by
  induction todo generalizing bytes st with
  | nil =>
    have none : bytes = [] := (append_eq_nil_iff.mp start).1
    subst none
    refine ⟨[], [], [], st, rfl, rfl, rfl, ends_of_leave ?_, held, .refl st⟩
    have used : st.bufferUsed = 0 := held.used
    rw [tlsBody, recordBody, if_pos (by omega)]
  | cons r todo ih =>
    have split : stream (r :: todo) = r.encode ++ stream todo := flatMap_cons
    rw [split] at start
    by_cases short : bytes.length < r.encode.length
    · exact ⟨[], r :: todo, bytes, st, rfl, rfl, short, records_wait ctx r start held short, held,
        .refl st⟩
    · have whole : r.encode <+: bytes := prefix_of_prefix_length_le
        (prefix_append r.encode (stream todo)) ⟨rest, start⟩ (Nat.le_of_not_lt short)
      obtain ⟨more, rfl⟩ := whole
      rw [append_assoc] at start
      have startMore := append_cancel_left start
      obtain ⟨st', left, handed, ended, goesOn⟩ := record_handOver ctx r st held plain
      by_cases empty : more = []
      · subst empty
        refine ⟨[r], todo, [], st', rfl, by simp [stream], unfinished_nil todo, ended rfl, left, ?_⟩
        simpa [messagesOf] using handed
      · obtain ⟨now, later, rest', final, rfl, rfl, unfinished, ends, holds, others⟩ :=
          ih more st' startMore left ((handed.changeCipher ctx).trans plain)
        refine ⟨r :: now, later, rest', final, rfl, ?_, unfinished, goesOn empty _ ends, holds, ?_⟩
        · rw [← append_assoc]
          exact congrArg (· ++ rest') (flatMap_cons).symm
        · have both := handed.trans others
          rwa [show messagesOf (r :: now) = r.messages.map (·.encode) ++ messagesOf now from
            flatMap_cons]

end Ndpi.Refinement.TlsRecord
