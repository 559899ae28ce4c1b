import Ndpi.Refinement.TlsMessage
import Ndpi.Refinement.TlsRecord

/-!
# Handshake messages over TCP segments

However a stream of handshake records is cut into segments, the messages handed
over are those of the records: after each segment the buffer holds the part of the
stream behind the last complete record.
-/
namespace Ndpi.Guarantees.TlsSegments
open Lib Source.Tls Refinement.TlsMessage Refinement.TlsRecord List

/-- A segment of the stream; `fresh` is what memory allocated for it holds. -/
structure Arrival where
  payload : Bytes
  fresh : Nat → UInt8

/-- The segments are neither empty nor longer than `payload_packet_len` can say. -/
def Arrival.Proper (a : Arrival) : Prop := 0 < a.payload.length ∧ a.payload.length < 65536

/-- The calls of `ndpi_search_tls_tcp` for segments that arrive in order, from the
sequence number `seq` on, with the allocations granted. -/
def feed (ctx : TlsContext) (fuel : Nat) : TlsFlow → Nat → List Arrival → Option TlsFlow
  | flow, _, [] => some flow
  | flow, seq, a :: rest =>
    (searchTlsTcp ⟨true, true, a.fresh⟩ ctx fuel flow ⟨some seq, a.payload, false⟩).bind
      fun called => feed ctx fuel called.2 (wrap32 (seq + a.payload.length)) rest

def freshFlow : TlsFlow := ⟨Message.cleared, false, false, #v[false, false], []⟩

/-- The message buffer has the bytes `left` and takes those from `seq` on next. -/
structure Buffered (message : Message) (buffer : Memory) (left : Bytes) : Prop where
  present : message.buffer = some buffer
  size : buffer.cells.length = message.bufferLen
  modest : message.bufferLen ≤ 131072
  content : ∃ tail, buffer.cells = left ++ tail
  used : message.bufferUsed = left.length

def Stored (message : Message) (left : Bytes) (seq : Nat) : Prop :=
  (message.nextSeq = 0 ∨ seq = message.nextSeq) ∧
    ((message.buffer = none ∧ left = []) ∨ ∃ buffer, Buffered message buffer left)

variable {seq : Nat}

lemma enlargeAndAppend_buffered (keeps : Keeps message buffer left)
    (modest : message.bufferLen ≤ 131072) (expected : message.nextSeq = 0 ∨ seq = message.nextSeq)
    (some : 0 < payload.length) (short : payload.length < 65536) (few : left.length < 32768) :
    ∃ message' buffer', enlargeAndAppend ⟨true, true, fresh⟩ payload seq buffer message =
        (0, message') ∧ Buffered message' buffer' (left ++ payload) ∧
      message'.nextSeq = wrap32 (seq + payload.length) := by
  obtain ⟨message', called, ⟨buffer', keeps'⟩, next, length⟩ :=
    enlargeAndAppend_keeps fresh keeps expected some (by omega)
  exact ⟨message', buffer', called,
    ⟨keeps'.present, keeps'.size, by omega, keeps'.content, keeps'.used⟩, next⟩

/-- A segment that arrives in order is appended to what the buffer holds. -/
lemma searchTlsMemory_stored (fresh : Nat → UInt8) (stored : Stored message left seq)
    (some : 0 < payload.length) (short : payload.length < 65536) (few : left.length < 32768) :
    ∃ message' buffer', searchTlsMemory ⟨true, true, fresh⟩ payload seq message = (0, message') ∧
      Buffered message' buffer' (left ++ payload) ∧
      message'.nextSeq = wrap32 (seq + payload.length) := by
  obtain ⟨expected, ⟨absent, rfl⟩ | ⟨buffer, buffered⟩⟩ := stored
  · rw [searchTlsMemory, absent]
    have modest : firstBufferLen ≤ 131072 := by decide
    exact enlargeAndAppend_buffered (allocated_keeps message fresh) modest expected some short
      (by decide)
  · have keeps : Keeps message buffer left :=
      ⟨buffered.present, buffered.size, buffered.content, buffered.used⟩
    rw [searchTlsMemory, buffered.present]
    exact enlargeAndAppend_buffered keeps buffered.modest expected some short few

/-- A flow that has taken the records `done` and holds `left`. -/
structure Received (flow : TlsFlow) (done : List HandshakeRecord) (left : Bytes) (seq : Nat) :
    Prop where
  stored : Stored flow.message left seq
  client : flow.changeCipherFromClient = false
  server : flow.changeCipherFromServer = false
  messages : handedOver flow.effects = messagesOf done

variable (first second : List HandshakeRecord)

lemma messagesOf_append :
    messagesOf (first ++ second) = messagesOf first ++ messagesOf second := flatMap_append

lemma stream_append : stream (first ++ second) = stream first ++ stream second := flatMap_append

variable {done todo : List HandshakeRecord}

/-- One segment: the records it completes are handed over. -/
lemma Received.segment
    (received : Received flow done left seq) (ctx : TlsContext) (a : Arrival) (proper : a.Proper)
    (start : left ++ (a.payload ++ rest) = stream todo) (unfinished : Unfinished todo left) :
    ∃ enough flow' now later left', todo = now ++ later ∧
      left' ++ rest = stream later ∧ Unfinished later left' ∧
      Received flow' (done ++ now) left' (wrap32 (seq + a.payload.length)) ∧
      ∀ fuel, enough ≤ fuel → searchTlsTcp ⟨true, true, a.fresh⟩ ctx fuel flow
        ⟨some seq, a.payload, false⟩ = some (.dissected false, flow') := by
  obtain ⟨nonempty, short⟩ := proper
  have few : left.length < 32768 := by
    cases todo with
    | nil =>
      rw [show left = [] from unfinished]
      decide
    | cons r later =>
      have below : left.length < r.encode.length := unfinished
      have small := r.small
      rw [r.encode_length] at below
      omega
  obtain ⟨message, buffer, called, buffered, next⟩ :=
    searchTlsMemory_stored a.fresh received.stored nonempty short few
  let before : TlsFlow := { flow with message := message }
  have held : Holds (before.state buffer.cells) (left ++ a.payload) :=
    ⟨buffered.used, buffered.content⟩
  have plain : (before.state buffer.cells).changeCipher ctx = false := by
    show (if ctx.fromClient then flow.changeCipherFromClient else flow.changeCipherFromServer) =
      false
    rw [received.client, received.server, ite_self]
  obtain ⟨now, later, left', st, rfl, split, unfinished', ⟨enough, ended⟩, holds, handed⟩ :=
    records_handOver ctx todo (left ++ a.payload) rest (before.state buffer.cells)
      (by rw [append_assoc]; exact start) held plain
  refine ⟨enough, before.updated buffer st, now, later, left', rfl, ?_, unfinished', ?_, ?_⟩
  · rw [← append_assoc, split, append_assoc, stream_append] at start
    exact append_cancel_left start
  · refine ⟨⟨.inr next.symm, .inr ⟨{ buffer with cells := st.buffer }, rfl, ?_, buffered.modest,
      holds.content, holds.used⟩⟩, handed.client.trans received.client,
      handed.server.trans received.server, ?_⟩
    · exact handed.size.trans buffered.size
    · rw [messagesOf_append, ← received.messages]
      exact handed.messages
  · intro fuel sufficient
    have ran := loop_mono sufficient ended
    simp only [searchTlsTcp, called, buffered.present]
    rw [if_neg (by simp only [Bool.false_eq_true, or_false]; omega)]
    simp only [before] at ran
    rw [ran]
    rfl

/-- All segments, by induction on them with the part of the stream still to come. -/
lemma Received.segments (received : Received flow done left seq)
    (ctx : TlsContext) (arrivals : List Arrival) (proper : ∀ a ∈ arrivals, a.Proper)
    (start : left ++ arrivals.flatMap (·.payload) = stream todo)
    (unfinished : Unfinished todo left) :
    ∃ enough flow', handedOver flow'.effects = messagesOf (done ++ todo) ∧
      ∀ fuel, enough ≤ fuel → feed ctx fuel flow seq arrivals = some flow' := by
  induction arrivals generalizing flow done todo left seq with
  | nil =>
    rw [flatMap_nil, append_nil] at start
    have finished : todo = [] := by
      cases todo with
      | nil => rfl
      | cons r later =>
        have below : left.length < r.encode.length := unfinished
        rw [start, stream, flatMap_cons, length_append] at below
        omega
    refine ⟨0, flow, ?_, fun _ _ => rfl⟩
    rw [finished, append_nil, received.messages]
  | cons a arrivals ih =>
    rw [flatMap_cons] at start
    obtain ⟨enough, flow', now, later, left', rfl, start', unfinished', received', ran⟩ :=
      received.segment ctx a (proper a mem_cons_self) start unfinished
    obtain ⟨enough', final, messages, others⟩ :=
      ih received' (fun b member => proper b (mem_cons_of_mem _ member)) start' unfinished'
    refine ⟨max enough enough', final, by rw [messages, append_assoc], fun fuel most => ?_⟩
    rw [feed, ran fuel (by omega), Option.bind_some]
    exact others fuel (by omega)

/-- Any split of a stream of handshake records into segments, from any sequence
number on, hands over exactly the messages of the records, in order. -/
theorem tls_segments_hand_over_messages (ctx : TlsContext) (records : List HandshakeRecord)
    (arrivals : List Arrival) (seq : Nat) (proper : ∀ a ∈ arrivals, a.Proper)
    (whole : arrivals.flatMap (·.payload) = stream records) :
    ∃ enough flow, handedOver flow.effects = messagesOf records ∧
      ∀ fuel, enough ≤ fuel → feed ctx fuel freshFlow seq arrivals = some flow := by
  have start : Received freshFlow [] [] seq := ⟨⟨.inl rfl, .inl ⟨rfl, rfl⟩⟩, rfl, rfl, rfl⟩
  exact start.segments ctx arrivals proper whole (unfinished_nil records)

def sampleRecord : HandshakeRecord := ⟨0x01, [⟨0x01, [9]⟩, ⟨0x02, []⟩], by decide⟩

def sampleArrivals : List Arrival :=
  [⟨[0x16, 0x03, 0x01], fun _ => 0⟩, ⟨[0, 9, 0x01, 0, 0], fun _ => 0⟩,
    ⟨[1, 9, 0x02, 0, 0, 0], fun _ => 0⟩]

/-- One record of two messages in three segments. -/
theorem tls_segments_hand_over_messages_sample :
    ((∀ a ∈ sampleArrivals, a.Proper) ∧
      sampleArrivals.flatMap (·.payload) = stream [sampleRecord]) ∧
    ∃ enough flow, handedOver flow.effects = [[0x01, 0, 0, 1, 9], [0x02, 0, 0, 0]] ∧
      ∀ fuel, enough ≤ fuel →
        feed ⟨0, true, 0⟩ fuel freshFlow 7 sampleArrivals = some flow := by
  have proper : ∀ a ∈ sampleArrivals, a.Proper := by
    intro a member
    simp only [sampleArrivals, mem_cons, not_mem_nil, or_false] at member
    rcases member with rfl | rfl | rfl <;> exact ⟨by decide, by decide⟩
  exact ⟨⟨proper, rfl⟩, tls_segments_hand_over_messages ⟨0, true, 0⟩ [sampleRecord]
    sampleArrivals 7 proper rfl⟩

end Ndpi.Guarantees.TlsSegments
