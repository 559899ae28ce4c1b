import Mathlib.Data.List.Chain
import Ndpi.Source.Tls.Message

/-!
# The order of the segments in a TLS message buffer

`ndpi_search_tls_memory` takes a segment that begins where the last one ended. The end is
kept in `next_seq`, where 0 also stands for a buffer that has taken nothing yet.
-/
namespace Ndpi.Guarantees.TlsMemory
open Lib Source.Tls List

/-- A call of `ndpi_search_tls_memory`, with what the allocator does for it. -/
structure Segment where
  heap : MessageHeap
  seq : Nat
  payload : Bytes
  narrow : seq < 4294967296
  short : payload.length < 65536

/-- The sequence number behind a segment. -/
def Segment.finish (s : Segment) : Nat := wrap32 (s.seq + s.payload.length)

def call (m : Message) (s : Segment) : Message := (searchTlsMemory s.heap s.payload s.seq m).2

/-- The segments that are appended: those after which another number of bytes of the
buffer is in use. -/
def appended : Message → List Segment → List Segment
  | _, [] => []
  | m, s :: rest =>
    if (call m s).bufferUsed = m.bufferUsed then appended (call m s) rest
    else s :: appended (call m s) rest

/-- Every segment but the first begins where the one before it ended. -/
def InOrder (segments : List Segment) : Prop := segments.IsChain fun a b => b.seq = a.finish

/-- Once a segment has been appended, one that is appended while `next_seq` is 0 begins at
sequence number 0. -/
def Steady : Bool → Message → List Segment → Prop
  | _, _, [] => True
  | begun, m, s :: rest =>
    let appends := (call m s).bufferUsed ≠ m.bufferUsed
    (begun → m.nextSeq = 0 → appends → s.seq = 0) ∧ Steady (begun || appends) (call m s) rest

/-- The counter of used bytes is a 32-bit number, and 0 without a buffer. -/
structure Sane (m : Message) : Prop where
  narrow : m.bufferUsed < 4294967296
  empty : m.buffer = none → m.bufferUsed = 0

/-- What a call does to the counter and to the number expected next. -/
structure Takes (m m' : Message) (s : Segment) : Prop where
  sane : Sane m'
  effect : (m'.bufferUsed ≠ m.bufferUsed ∧ (m.nextSeq = 0 ∨ s.seq = m.nextSeq) ∧
      m'.nextSeq = s.finish) ∨
    (m'.bufferUsed = m.bufferUsed ∧ m'.nextSeq = m.nextSeq)

/-- The same, seen from a message that differs in its buffer only. -/
lemma Takes.of_same (used : n.bufferUsed = m.bufferUsed)
    (next : n.nextSeq = m.nextSeq) (takes : Takes n m' s) : Takes m m' s := by
  refine ⟨takes.sane, ?_⟩
  rw [← used, ← next]
  exact takes.effect

lemma wrap32_add_ne {used count : Nat} (positive : 0 < count) (short : count < 65536) :
    wrap32 (used + count) ≠ used := by
  unfold wrap32
  omega

variable {m : Message}

lemma appendPayload_takes {buffer : Memory} (present : m.buffer = some buffer)
    (narrow : m.bufferUsed < 4294967296) :
    Takes m (appendPayload s.payload s.seq buffer m) s := by
  have sane : Sane m := ⟨narrow, fun absent => by rw [present] at absent; cases absent⟩
  unfold appendPayload
  dsimp only
  split
  · next room =>
    split
    · next expected =>
      refine ⟨⟨wrap32_lt _, ?_⟩, .inl ⟨?_, expected, rfl⟩⟩
      · intro absent
        cases absent
      · exact wrap32_add_ne room.1 s.short
    · exact ⟨sane, .inr ⟨rfl, rfl⟩⟩
  · exact ⟨sane, .inr ⟨rfl, rfl⟩⟩

lemma enlargeAndAppend_takes (present : m.buffer = some buffer)
    (narrow : m.bufferUsed < 4294967296) :
    Takes m (enlargeAndAppend s.heap s.payload s.seq buffer m).2 s := by
  unfold enlargeAndAppend
  dsimp only
  split
  · split
    · refine Takes.of_same ?_ ?_ (appendPayload_takes rfl narrow)
      · rfl
      · rfl
    · refine ⟨⟨narrow, ?_⟩, .inr ⟨rfl, rfl⟩⟩
      intro absent
      rw [present] at absent
      cases absent
  · exact appendPayload_takes present narrow

lemma call_takes (sane : Sane m) (s : Segment) : Takes m (call m s) s := by
  unfold call searchTlsMemory
  cases present : m.buffer with
  | some buffer => exact enlargeAndAppend_takes present sane.narrow
  | none =>
    dsimp only
    split
    · refine Takes.of_same ?_ ?_ (enlargeAndAppend_takes rfl (Nat.zero_lt_succ _))
      · exact (sane.empty present).symm
      · rfl
    · refine ⟨⟨Nat.zero_lt_succ _, fun _ => rfl⟩, .inr ⟨?_, rfl⟩⟩
      exact (sane.empty present).symm

/-- After a segment the number expected next is its end. The induction is on the calls
still to come. -/
lemma inOrder_after_iff (sane : Sane m) (last : Segment) (expects : m.nextSeq = last.finish)
    (segments : List Segment) :
    InOrder (last :: appended m segments) ↔ Steady true m segments := by
  induction segments generalizing m last with
  | nil => exact iff_of_true (isChain_singleton _) trivial
  | cons s rest ih =>
    have takes := call_takes sane s
    rw [appended, Steady, Bool.true_or]
    obtain ⟨grown, expected, ended⟩ | ⟨same, kept⟩ := takes.effect
    · have here : s.seq = last.finish ↔ (m.nextSeq = 0 → s.seq = 0) := by
        rw [← expects]
        constructor
        · exact fun follows zero => follows.trans zero
        · intro restarts
          obtain zero | follows := expected
          · exact (restarts zero).trans zero.symm
          · exact follows
      rw [if_neg grown, InOrder, isChain_cons_cons, here]
      exact and_congr (by simp [grown]) (ih takes.sane s ended)
    · rw [if_pos same]
      simpa [same] using ih takes.sane last (kept.trans expects)

/-- From an empty message on, each appended segment begins where the one appended before
it ended, exactly if none that is appended while `next_seq` is 0, but the first, begins
elsewhere than at 0. -/
theorem appended_in_order_iff (segments : List Segment) :
    InOrder (appended .cleared segments) ↔ Steady false .cleared segments := by
  have start : Sane .cleared := ⟨Nat.zero_lt_succ _, fun _ => rfl⟩
  generalize Message.cleared = m at start
  induction segments generalizing m with
  | nil => exact iff_of_true List.IsChain.nil trivial
  | cons s rest ih =>
    have takes := call_takes start s
    rw [appended, Steady]
    obtain ⟨grown, -, ended⟩ | ⟨same, -⟩ := takes.effect
    · simpa [grown] using inOrder_after_iff takes.sane s ended rest
    · simpa [same] using ih _ takes.sane

lemma last_seq_narrow : 4294967295 < 4294967296 := by decide

lemma seq_100_narrow : 100 < 4294967296 := by decide

lemma one_byte_short (b : UInt8) : [b].length < 65536 := by
  rw [length_singleton]
  decide

/-- One byte that ends at sequence number 0, and one byte that begins at 100. -/
def sampleGap : List Segment :=
  [⟨⟨true, true, fun _ => 0⟩, 4294967295, [1], last_seq_narrow, one_byte_short 1⟩,
    ⟨⟨true, true, fun _ => 0⟩, 100, [2], seq_100_narrow, one_byte_short 2⟩]

theorem gap_is_appended :
    (appended .cleared sampleGap).map (fun s => (s.seq, s.finish)) =
      [(4294967295, 0), (100, 101)] := by
  decide +kernel

end Ndpi.Guarantees.TlsMemory
