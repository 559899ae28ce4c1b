import Ndpi.Source.Serialization.State

/-!
# Buffer discipline

What the primitive writes do to the used part of a buffer. `Shaped` holds of
every serializer the interface can produce; `Sound` adds that the used part lies
inside the allocation, which an operation that fails half way can break.
-/
namespace Ndpi.Refinement
open Lib Source.Serialization Memory

structure Shaped (s : Serializer) : Prop where
  cells : s.buffer.data.cells.length = s.buffer.size
  size : s.buffer.size < 4294967296
  used : s.status.used < 4294967296

structure Sound (s : Serializer) : Prop extends Shaped s where
  inside : s.status.used ≤ s.buffer.size

/-- No store so far went outside the allocation. -/
def Clean (s : Serializer) : Prop := s.buffer.data.stray = []

instance (s : Serializer) : Decidable (Clean s) := inferInstanceAs (Decidable (_ = _))

variable {s : Serializer}

lemma Sound.text_length (sound : Sound s) : s.text.length = s.status.used := by
  have cells := sound.cells
  have inside := sound.inside
  rw [Serializer.text, List.length_take]
  omega

section
variable (shaped : Shaped s)
include shaped

lemma Shaped.storeAll (index : Nat) (bytes : Bytes) :
    Shaped (s.storeAll index bytes) :=
  ⟨(storeAll_length _ _ _).trans shaped.cells, shaped.size, shaped.used⟩

lemma Shaped.advance (count : Nat) : Shaped (s.advance count) :=
  ⟨shaped.cells, shaped.size, wrap32_lt _⟩

lemma Shaped.append (bytes : Bytes) : Shaped (s.append bytes) := (shaped.storeAll _ _).advance _

/-- A copy that strays nowhere starts inside the allocation. -/
lemma append_inside (some : bytes ≠ []) (clean : Clean (s.append bytes)) :
    Sound s ∧ s.status.used + bytes.length ≤ s.buffer.size := by
  have room := (storeAll_clean bytes s.buffer.data s.status.used clean).2 some
  rw [shaped.cells] at room
  exact ⟨⟨shaped, by omega⟩, room⟩

end

/-- A copy that strays nowhere extends the text. -/
lemma append_spec (sound : Sound s) (clean : Clean (s.append bytes)) :
    Clean s ∧ Sound (s.append bytes) ∧ (s.append bytes).text = s.text ++ bytes := by
  obtain ⟨before, room⟩ := storeAll_clean bytes s.buffer.data s.status.used clean
  have cells := sound.cells
  have size := sound.size
  have inside : s.status.used + bytes.length ≤ s.buffer.size := by
    by_cases none : bytes = []
    · subst none
      exact sound.inside
    · have bound := room none
      omega
  have fits : s.status.used + bytes.length < 4294967296 := lt_of_le_of_lt inside size
  have used : (s.append bytes).status.used = s.status.used + bytes.length := wrap32_of_lt fits
  refine ⟨before, ⟨sound.toShaped.append bytes, ?_⟩, ?_⟩
  · rw [used]
    exact inside
  · rw [Serializer.text, used]
    exact storeAll_take_append bytes s.buffer.data s.status.used (by omega)

variable (b : SerializerBuffer)

/-- How far a request is rounded up before the size is rounded to a multiple of
four. -/
lemma extendedSize_eq (minLen : Nat) :
    ∃ step, minLen ≤ step ∧ step ≤ minLen + 1024 ∧
      extendedSize b minLen = wrap32 ((wrap32 (b.size + step) / 4 + 1) * 4) := by
  unfold extendedSize defaultBufferIncr
  split
  · split
    · split
      · exact ⟨b.initialSize, by omega, by omega, rfl⟩
      · exact ⟨minLen, by omega, by omega, rfl⟩
    · exact ⟨1024, by omega, by omega, rfl⟩
  · exact ⟨minLen, by omega, by omega, rfl⟩

lemma extendedSize_lt (minLen : Nat) : extendedSize b minLen < 4294967296 := by
  unfold extendedSize
  exact wrap32_lt _

/-- Growing adds at least what was asked for, unless the new size passes `2 ^ 32`
and comes out small. -/
lemma extendedSize_cases (minLen : Nat) (size : b.size < 4294967296) (modest : minLen ≤ 1048576) :
    (b.size + minLen ≤ extendedSize b minLen ∧ extendedSize b minLen ≤ b.size + minLen + 1028) ∨
      (4294967296 ≤ b.size + minLen + 1028 ∧ extendedSize b minLen ≤ 1049608) := by
  obtain ⟨step, atLeast, atMost, result⟩ := extendedSize_eq b minLen
  rw [result]
  unfold wrap32
  omega

lemma buffDiff_eq (s : Serializer) :
    s.buffDiff = if s.status.used ≤ s.buffer.size then s.buffer.size - s.status.used
      else s.buffer.size + 4294967296 - s.status.used := rfl

/-- What a successful reservation leaves: everything but the buffer's size as it
was, with the room asked for, or an allocation far too small for the text. -/
structure Reserved (s t : Serializer) (needed : Nat) : Prop where
  shaped : Shaped t
  same : t = { s with buffer := t.buffer }
  initialSize : t.buffer.initialSize = s.buffer.initialSize
  stray : t.buffer.data.stray = s.buffer.data.stray
  kept : s.status.used ≤ s.buffer.size → s.status.used ≤ t.buffer.size → t.text = s.text
  room : (s.status.used ≤ s.buffer.size ∧ s.status.used + needed ≤ t.buffer.size ∧
      s.buffer.size ≤ t.buffer.size ∧
      (t.buffer.size = s.buffer.size ∨ t.buffer.size ≤ s.status.used + needed + 1028)) ∨
    t.buffer.size < s.status.used ∧
      (s.buffer.size < s.status.used ∨ t.buffer.size + 2147483648 < s.status.used)

variable {needed : Nat} {heap : Heap}

/-- A successful reservation either finds the room or moves to a larger buffer. -/
lemma reserve_cases (success : (s.reserve heap needed).rc = 0) :
    (needed ≤ s.buffDiff ∧ s.reserve heap needed = ok s) ∨
    (s.buffDiff < needed ∧ ∃ newSize, newSize = extendedSize s.buffer (needed - s.buffDiff) ∧
      s.reserve heap needed = ok { s with
        buffer := ⟨s.buffer.initialSize, newSize, s.buffer.data.resize heap.fresh newSize⟩ }) := by
  unfold Serializer.reserve at success ⊢
  by_cases tight : s.buffDiff < needed
  · rw [if_pos tight] at success ⊢
    refine .inr ⟨tight, _, rfl, ?_⟩
    unfold extendSerializerBuffer at success ⊢
    by_cases granted : heap.grants (extendedSize s.buffer (needed - s.buffDiff)) = true
    · simp [granted]
    · simp only [granted] at success
      cases success
  · rw [if_neg tight]
    exact .inl ⟨Nat.le_of_not_lt tight, rfl⟩

lemma reserve_failed (failure : (s.reserve heap needed).rc ≠ 0) :
    (s.reserve heap needed).ser = s := by
  unfold Serializer.reserve at failure ⊢
  split at failure
  · next tight =>
    rw [if_pos tight]
    split at failure
    · exact absurd rfl failure
    · rfl
  · exact absurd rfl failure

/-- Reserving space changes the buffer only. -/
lemma reserve_same (s : Serializer) (heap : Heap) (needed : Nat) :
    (s.reserve heap needed).ser = { s with buffer := (s.reserve heap needed).ser.buffer } := by
  unfold Serializer.reserve
  split
  · split <;> rfl
  · rfl

lemma reserve_fmt (s : Serializer) (heap : Heap) (needed : Nat) :
    (s.reserve heap needed).ser.fmt = s.fmt := by
  rw [reserve_same]

lemma reserve_mode (s : Serializer) (heap : Heap) (needed : Nat) :
    (s.reserve heap needed).ser.multilineJsonArray = s.multilineJsonArray := by
  rw [reserve_same]

lemma reserve_spec (shaped : Shaped s) (modest : needed ≤ 1048576)
    (success : (s.reserve heap needed).rc = 0) :
    Reserved s (s.reserve heap needed).ser needed := by
  have size := shaped.size
  have diff := buffDiff_eq s
  rcases reserve_cases success with ⟨loose, result⟩ | ⟨tight, newSize, rounded, result⟩
  · rw [result]
    refine ⟨shaped, rfl, rfl, rfl, fun _ _ => rfl, ?_⟩
    split at diff
    · next inside =>
      have room : s.status.used + needed ≤ s.buffer.size := by omega
      exact .inl ⟨inside, room, Nat.le_refl _, .inl rfl⟩
    · next outside =>
      have under := Nat.lt_of_not_le outside
      exact .inr ⟨under, .inl under⟩
  · rw [result]
    have cases := extendedSize_cases s.buffer (needed - s.buffDiff) size
      (Nat.le_trans (Nat.sub_le _ _) modest)
    have small := extendedSize_lt s.buffer (needed - s.buffDiff)
    rw [← rounded] at cases small
    refine ⟨⟨resize_length _ _ _, small, shaped.used⟩, rfl, rfl, rfl, ?_, ?_⟩
    · intro inside fits
      exact resize_take _ _ _ _ (shaped.cells ▸ inside) fits
    · show (_ ∧ _ ≤ newSize ∧ _ ≤ newSize ∧ (newSize = _ ∨ newSize ≤ _)) ∨
        newSize < _ ∧ (_ ∨ newSize + _ < _)
      split at diff <;> omega

end Ndpi.Refinement
