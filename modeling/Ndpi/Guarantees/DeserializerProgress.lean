import Ndpi.Refinement.TlvExtent
import Ndpi.Source.Serialization.Clone

/-!
# Progress of the deserializer

The read offset of a deserializer over an arbitrary buffer. It advances with
every successful call, and `ndpi_deserialize_clone_all` ends, exactly when the
items the deserializer sees cover the buffer without a gap: an item whose size
passes 16 bits is skipped by less than its size, possibly by nothing, and behind
the end of the buffer the offset counts on until it wraps.
-/
namespace Ndpi.Guarantees.DeserializerProgress
open Lib Source.Serialization Refinement Option Access

/-- Whenever `ndpi_deserialize_next` returns 0 the read offset has grown. -/
def AlwaysAdvances (start : Serializer) : Prop :=
  ∀ d, Reached start d → (deserializeNext d).val.rc = 0 →
    d.status.used < (deserializeNext d).val.ser.status.used

/-- `ndpi_deserialize_clone_all` returns, whatever the serializer it writes to,
the allocator and the text of floats are. -/
def CloneAllReturns (d : Serializer) : Prop :=
  ∀ printed heaps s, ∃ rounds result, deserializeCloneAll printed rounds heaps d s = some result

/-- The items from an offset on end exactly at the end of the buffer, none of
them with a size that is zero in 16 bits. -/
inductive Tiles (cells : Bytes) (len : Nat) : Nat → Prop
  | done : Tiles cells len len
  | item {offset : Nat} : offset < len → 0 < itemSizeAt cells len offset →
      Tiles cells len (offset + itemSizeAt cells len offset) → Tiles cells len offset

lemma Tiles.le (tiles : Tiles cells len offset) : offset ≤ len := by
  cases tiles with
  | done => exact le_refl _
  | item inside => exact le_of_lt inside

lemma Tiles.of_ne (tiles : Tiles cells len offset) (elsewhere : offset ≠ len) :
    offset < len ∧ 0 < itemSizeAt cells len offset ∧
      Tiles cells len (offset + itemSizeAt cells len offset) := by
  cases tiles with
  | done => exact absurd rfl elsewhere
  | item inside positive rest => exact ⟨inside, positive, rest⟩

section
variable {start : Serializer}

/-- One step of the walk over a covered buffer. -/
lemma Tiles.step (small : d.status.used < 4294967296) (size : d.buffer.size < 4294967296)
    (tiles : Tiles d.buffer.data.cells d.buffer.size d.status.used)
    (success : (deserializeNext d).val.rc = 0) :
    d.status.used < (deserializeNext d).val.ser.status.used ∧
      Tiles d.buffer.data.cells d.buffer.size (deserializeNext d).val.ser.status.used := by
  obtain ⟨elsewhere, result⟩ := deserializeNext_success small success
  obtain ⟨inside, positive, rest⟩ := tiles.of_ne elsewhere
  have next : (deserializeNext d).val.ser.status.used =
      d.status.used + itemSizeAt d.buffer.data.cells d.buffer.size d.status.used := by
    rw [result, skipAt, if_pos inside]
    exact wrap32_of_lt (lt_of_le_of_lt rest.le size)
  rw [next]
  exact ⟨Nat.lt_add_of_pos_right positive, rest⟩

lemma Tiles.reached (small : start.status.used < 4294967296)
    (size : start.buffer.size < 4294967296)
    (tiles : Tiles start.buffer.data.cells start.buffer.size start.status.used)
    (reached : Reached start d) :
    Tiles d.buffer.data.cells d.buffer.size d.status.used := by
  induction reached with
  | start => exact tiles
  | @next d before success ih =>
    obtain ⟨buffer, used⟩ := before.buffer small
    have step := (ih.step used (buffer ▸ size) success).2
    rw [((before.next success).buffer small).1, ← buffer]
    exact step

/-- Every position of an advancing walk starts a cover of the rest: the offset
grows below `2 ^ 32`, so the walk ends, and it ends at the end of the buffer
only. -/
lemma AlwaysAdvances.tiles (small : start.status.used < 4294967296)
    (advances : AlwaysAdvances start) (distance : Nat) :
    ∀ d, Reached start d → 4294967296 - d.status.used ≤ distance →
      Tiles d.buffer.data.cells d.buffer.size d.status.used := by
  induction distance with
  | zero =>
    intro d reached near
    have used := (reached.buffer small).2
    omega
  | succ distance ih =>
    intro d reached near
    obtain ⟨buffer, used⟩ := reached.buffer small
    by_cases atEnd : d.status.used = d.buffer.size
    · rw [atEnd]
      exact .done
    · have success := deserializeNext_rc used atEnd
      have grows := advances d reached success
      have rest := ih _ (reached.next success) (by omega)
      rw [((reached.next success).buffer small).1, ← buffer] at rest
      rw [(deserializeNext_success used success).2] at grows rest
      rcases Nat.lt_or_gt_of_ne atEnd with inside | behind
      · rw [skipAt, if_pos inside] at grows rest
        have short : itemSizeAt d.buffer.data.cells d.buffer.size d.status.used < 65536 :=
          wrap16_lt _
        have unwrapped : (d.advance
            (itemSizeAt d.buffer.data.cells d.buffer.size d.status.used)).status.used =
            d.status.used + itemSizeAt d.buffer.data.cells d.buffer.size d.status.used := by
          simp only [Serializer.advance, wrap32] at grows ⊢
          omega
        rw [unwrapped] at grows rest
        exact .item inside (by omega) rest
      · have bound := rest.le
        omega

end

/-- Over a covered buffer the loop of `ndpi_deserialize_clone_all` makes at most
one round per item and one at the end. -/
lemma Tiles.cloneAll_returns (tiles : Tiles cells len offset)
    (size : len < 4294967296) (printed : UInt32 → Bytes) :
    ∀ heaps d s, d.buffer.data.cells = cells → d.buffer.size = len → d.status.used = offset →
      ∃ rounds result, deserializeCloneAll printed rounds heaps d s = some result := by
  induction tiles with
  | done =>
    intro heaps d s _ len used
    have type : (deserializeGetItemType d).val.2 = .unknown := by
      simp [deserializeGetItemType, deserializeGetValueSubtype,
        if_pos (Nat.le_of_eq (len.trans used.symm)), ItemType.widened]
    exact ⟨1, ⟨0, s, []⟩, by rw [deserializeCloneAll, if_pos type]⟩
  | @item offset inside positive rest ih =>
    intro heaps d s contents length used
    subst contents length used
    have next : (deserializeNext d).val.ser = d.advance
        (itemSizeAt d.buffer.data.cells d.buffer.size d.status.used) := by
      rw [deserializeNext_val inside]
      rfl
    by_cases unknown : (deserializeGetItemType d).val.2 = .unknown
    · exact ⟨1, ⟨0, s, []⟩, by rw [deserializeCloneAll, if_pos unknown]⟩
    · cases call : cloneCall printed d with
      | error rc => exact ⟨1, ⟨rc, s, []⟩, by rw [deserializeCloneAll, if_neg unknown, call]⟩
      | ok op =>
        obtain ⟨rounds, result, returns⟩ := ih (fun i => heaps (i + 1))
          (deserializeNext d).val.ser (op.apply (heaps 0) s).ser (by rw [next]; rfl)
          (by rw [next]; rfl)
          (by rw [next]; exact wrap32_of_lt (lt_of_le_of_lt rest.le size))
        refine ⟨rounds + 1, { result with ignored := op.apply (heaps 0) s :: result.ignored }, ?_⟩
        rw [deserializeCloneAll, if_neg unknown, call]
        dsimp only
        rw [returns, map_some]

/-- Over every accepted buffer, the read offset grows with every successful
`ndpi_deserialize_next` and `ndpi_deserialize_clone_all` returns exactly when
the items of the buffer cover it. -/
theorem deserializer_progress_iff (b : AcceptedBuffer) :
    (AlwaysAdvances b.start ∧ CloneAllReturns b.start) ↔
      Tiles b.start.buffer.data.cells b.len.toNat b.start.status.used := by
  have small := b.start_used
  have size : b.start.buffer.size < 4294967296 := b.start_size ▸ b.len_lt
  rw [← b.start_size]
  constructor
  · intro ⟨advances, _⟩
    exact advances.tiles small _ b.start .start (le_refl _)
  · intro tiles
    refine ⟨fun d reached success => ?_, fun printed heaps s => ?_⟩
    · obtain ⟨buffer, used⟩ := reached.buffer small
      exact ((tiles.reached small size reached).step used (buffer ▸ size) success).1
    · exact tiles.cloneAll_returns size printed heaps b.start s rfl rfl rfl

/-- Version, format and the type byte of a string key with an 8-bit value, which
together take 65536 bytes when the key does not fit. -/
def stuckBuffer : AcceptedBuffer where
  before := ⟨noStatus, noBuffer, noBuffer, .unknown, 0, false, false, false, noStatus⟩
  data := ⟨[1, 1, 0xB2], []⟩
  len := 3
  accepted := rfl

lemma stuckBuffer_next : (deserializeNext stuckBuffer.start).val = ok stuckBuffer.start := by
  decide

/-- `ndpi_deserialize_next` returns 0 without moving, and
`ndpi_deserialize_clone_all` replays the item forever. -/
theorem deserializer_stalls :
    ¬AlwaysAdvances stuckBuffer.start ∧ ¬CloneAllReturns stuckBuffer.start := by
  refine ⟨fun advances => ?_, fun returns => ?_⟩
  · have grows := advances _ .start (by rw [stuckBuffer_next]; rfl)
    rw [stuckBuffer_next] at grows
    exact lt_irrefl _ grows
  · have forever : ∀ rounds heaps s,
        deserializeCloneAll (fun _ => []) rounds heaps stuckBuffer.start s = none := by
      intro rounds
      induction rounds with
      | zero => intro heaps s; rfl
      | succ rounds ih =>
        intro heaps s
        obtain ⟨op, call⟩ : ∃ op, cloneCall (fun _ => []) stuckBuffer.start = .ok op := ⟨_, rfl⟩
        have known : (deserializeGetItemType stuckBuffer.start).val.2 ≠ .unknown := by decide
        rw [deserializeCloneAll, if_neg known, call]
        dsimp only
        rw [stuckBuffer_next, ok, ih, map_none]
    obtain ⟨rounds, result, ended⟩ := returns (fun _ => []) (fun _ => ⟨fun _ => true, fun _ => 0⟩)
      stuckBuffer.start
    rw [forever] at ended
    cases ended

end Ndpi.Guarantees.DeserializerProgress
