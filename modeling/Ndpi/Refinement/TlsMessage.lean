import Ndpi.Source.Tls.Message

/-!
# What a TLS message buffer holds

A call of `ndpi_search_tls_memory` with the payload that is expected next appends it to
the bytes that the buffer holds, as long as the allocator grants the memory and the
lengths stay below `2 ^ 32`.
-/
namespace Ndpi.Refinement.TlsMessage
open Lib Source.Tls List Memory

/-- The message buffer has the bytes `left`, and no more of it is in use. -/
structure Keeps (message : Message) (buffer : Memory) (left : Bytes) : Prop where
  present : message.buffer = some buffer
  size : buffer.cells.length = message.bufferLen
  content : ∃ tail, buffer.cells = left ++ tail
  used : message.bufferUsed = left.length

variable {message : Message} (fresh : Nat → UInt8) {buffer : Memory} {left payload : Bytes}

lemma Keeps.inside {left : Bytes} (keeps : Keeps message buffer left) :
    left.length ≤ message.bufferLen := by
  obtain ⟨tail, content⟩ := keeps.content
  rw [← keeps.size, content, length_append]
  omega

/-- What a call with the payload leaves behind. -/
structure AppendedTo (message message' : Message) (left payload : Bytes) (seq : Nat) : Prop where
  keeps : ∃ buffer, Keeps message' buffer (left ++ payload)
  next : message'.nextSeq = wrap32 (seq + payload.length)
  length : message'.bufferLen ≤ max message.bufferLen (left.length + payload.length + 1)

variable {seq : Nat}

lemma appendPayload_keeps (keeps : Keeps message buffer left)
    (expected : message.nextSeq = 0 ∨ seq = message.nextSeq) (nonempty : 0 < payload.length)
    (room : left.length + payload.length ≤ message.bufferLen)
    (narrow : message.bufferLen < 4294967296) :
    AppendedTo message (appendPayload payload seq buffer message) left payload seq := by
  have size := keeps.size
  have used := keeps.used
  obtain ⟨tail, content⟩ := keeps.content
  have avail : sub32 message.bufferLen message.bufferUsed ≥ payload.length := by
    rw [sub32_of_le (by omega)]
    omega
  have appended : appendPayload payload seq buffer message = { message with
      buffer := some (buffer.storeAll message.bufferUsed payload)
      bufferUsed := wrap32 (message.bufferUsed + payload.length)
      nextSeq := wrap32 (seq + payload.length) } := by
    simp [appendPayload, if_pos (And.intro nonempty avail), if_pos expected]
  rw [appended]
  refine ⟨⟨buffer.storeAll message.bufferUsed payload, rfl, ?_, ?_, ?_⟩, rfl, le_max_left _ _⟩
  · rw [storeAll_length, size]
  · have copied := storeAll_take_append payload buffer message.bufferUsed (by omega)
    rw [used, content, take_left' rfl] at copied
    refine ⟨(buffer.storeAll message.bufferUsed payload).cells.drop
      (message.bufferUsed + payload.length), ?_⟩
    rw [used, ← copied, take_append_drop]
  · rw [length_append, ← used]
    exact wrap32_of_lt (by omega)

lemma resize_keeps {left : Bytes} (keeps : Keeps message buffer left)
    (enough : left.length ≤ newLen) :
    Keeps { message with buffer := some (buffer.resize fresh newLen), bufferLen := newLen }
      (buffer.resize fresh newLen) left := by
  have inside := keeps.inside
  obtain ⟨tail, content⟩ := keeps.content
  have kept := resize_take buffer fresh newLen left.length
    (by rw [keeps.size]; exact inside) enough
  rw [content, take_left' rfl] at kept
  refine ⟨rfl, resize_length _ _ _,
    ⟨(buffer.resize fresh newLen).cells.drop left.length, ?_⟩, keeps.used⟩
  nth_rewrite 1 [← take_append_drop left.length (buffer.resize fresh newLen).cells]
  rw [kept]

lemma enlargeAndAppend_keeps (keeps : Keeps message buffer left)
    (expected : message.nextSeq = 0 ∨ seq = message.nextSeq) (nonempty : 0 < payload.length)
    (narrow : message.bufferLen + payload.length + 1 < 4294967296) :
    ∃ message', enlargeAndAppend ⟨true, true, fresh⟩ payload seq buffer message = (0, message') ∧
      AppendedTo message message' left payload seq := by
  have inside := keeps.inside
  have avail : sub32 message.bufferLen message.bufferUsed = message.bufferLen - left.length := by
    rw [keeps.used, sub32_of_le inside]
  unfold enlargeAndAppend
  rw [avail]
  by_cases tight : message.bufferLen - left.length < payload.length
  · have grown : wrap32 (sub32 (wrap32 (message.bufferLen + payload.length))
        (message.bufferLen - left.length) + 1) = left.length + payload.length + 1 := by
      have fits : message.bufferLen + payload.length < 4294967296 := by omega
      have within : message.bufferLen - left.length ≤ message.bufferLen + payload.length := by omega
      rw [wrap32_of_lt fits, sub32_of_le within, wrap32_of_lt (by omega)]
      omega
    simp only [if_pos tight, grown, if_true]
    have enough : left.length ≤ left.length + payload.length + 1 := by omega
    have appended := appendPayload_keeps (resize_keeps fresh keeps enough) expected nonempty
      (Nat.le_succ _) (by dsimp only; omega)
    refine ⟨_, rfl, appended.keeps, appended.next, ?_⟩
    have length := appended.length
    dsimp only at length
    omega
  · simp only [if_neg tight]
    exact ⟨_, rfl, appendPayload_keeps keeps expected nonempty (by omega) (by omega)⟩

/-- The buffer holds these bytes; without a buffer there are none. -/
def Held (message : Message) (left : Bytes) : Prop :=
  (message.buffer = none ∧ left = []) ∨ ∃ buffer, Keeps message buffer left

/-- The buffer that a first call allocates. -/
lemma allocated_keeps (message : Message) (fresh : Nat → UInt8) :
    Keeps { message with
        buffer := some ⟨(List.range firstBufferLen).map fresh, []⟩
        bufferLen := firstBufferLen, bufferUsed := 0 }
      ⟨(List.range firstBufferLen).map fresh, []⟩ [] := by
  refine ⟨rfl, ?_, ⟨_, (nil_append _).symm⟩, rfl⟩
  rw [length_map, length_range]

/-- A payload that is expected next is appended to what the buffer holds. -/
lemma searchTlsMemory_keeps (held : Held message left)
    (expected : message.nextSeq = 0 ∨ seq = message.nextSeq) (nonempty : 0 < payload.length)
    (narrow : max message.bufferLen firstBufferLen + payload.length + 1 < 4294967296) :
    ∃ message', searchTlsMemory ⟨true, true, fresh⟩ payload seq message = (0, message') ∧
      AppendedTo { message with bufferLen := max message.bufferLen firstBufferLen } message' left
        payload seq := by
  obtain ⟨absent, rfl⟩ | ⟨buffer, keeps⟩ := held
  · rw [searchTlsMemory, absent]
    obtain ⟨message', called, appended⟩ := enlargeAndAppend_keeps fresh
      (allocated_keeps message fresh) expected nonempty (by dsimp only; omega)
    refine ⟨message', called, appended.keeps, appended.next, ?_⟩
    have length := appended.length
    dsimp only at length ⊢
    omega
  · rw [searchTlsMemory, keeps.present]
    obtain ⟨message', called, appended⟩ :=
      enlargeAndAppend_keeps fresh keeps expected nonempty (by omega)
    refine ⟨message', called, appended.keeps, appended.next, ?_⟩
    have length := appended.length
    dsimp only at length ⊢
    omega

/-- A call fails only if the allocator does. -/
lemma searchTlsMemory_granted (payload : Bytes) (seq : Nat) (message : Message) :
    (searchTlsMemory ⟨true, true, fresh⟩ payload seq message).1 = 0 := by
  have enlarge : ∀ (buffer : Memory) (m : Message),
      (enlargeAndAppend ⟨true, true, fresh⟩ payload seq buffer m).1 = 0 := by
    intro buffer m
    unfold enlargeAndAppend
    dsimp only
    split <;> rfl
  unfold searchTlsMemory
  split
  · exact enlarge _ _
  · exact enlarge _ _

/-- Whatever happens in a call, no more than the payload is added. -/
lemma searchTlsMemory_used (heap : MessageHeap) (payload : Bytes) (seq : Nat)
    (message : Message) :
    (searchTlsMemory heap payload seq message).2.bufferUsed ≤
      message.bufferUsed + payload.length := by
  have append : ∀ (buffer : Memory) (m : Message),
      (appendPayload payload seq buffer m).bufferUsed ≤ m.bufferUsed + payload.length := by
    intro buffer m
    unfold appendPayload
    dsimp only
    split
    · split
      · exact Nat.mod_le _ _
      · exact Nat.le_add_right _ _
    · exact Nat.le_add_right _ _
  have enlarge : ∀ (buffer : Memory) (m : Message),
      (enlargeAndAppend heap payload seq buffer m).2.bufferUsed ≤
        m.bufferUsed + payload.length := by
    intro buffer m
    unfold enlargeAndAppend
    dsimp only
    split
    · split
      · exact append _ _
      · exact Nat.le_add_right _ _
    · exact append _ _
  unfold searchTlsMemory
  split
  · exact enlarge _ _
  · dsimp only
    split
    · apply (enlarge _ _).trans
      dsimp only
      omega
    · exact Nat.zero_le _

end Ndpi.Refinement.TlsMessage
