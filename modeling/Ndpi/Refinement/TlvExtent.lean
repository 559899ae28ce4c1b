import Ndpi.Source.Serialization.Deserializer

/-!
# The extent of an item

What the deserializer takes the item at an offset to be, as a function of the
bytes and the length of the buffer alone: the types in the type byte, and the
sizes that the functions of the deserializer add up in 16-bit variables. Nothing
is assumed about the bytes.
-/
namespace Ndpi.Refinement
open Lib Source.Serialization Access Memory

def byteAt (cells : Bytes) (offset : Nat) : Nat := (cells[offset]?.getD 0).toNat

def keyTypeAt (cells : Bytes) (offset : Nat) : ItemType := .ofNibble (byteAt cells offset / 16)

def valueTypeAt (cells : Bytes) (offset : Nat) : ItemType := .ofNibble (byteAt cells offset % 16)

/-- The types whose field starts with a 16-bit length. -/
def hasLength : ItemType → Bool
  | .string | .startOfBlock | .startOfList => true
  | _ => false

/-- The size of a field with a length; one that does not fit the buffer counts
as 65534 bytes. -/
def stringSizeAt (cells : Bytes) (len offset : Nat) : Nat :=
  let size := wrap16 (2 + (byteAt cells offset * 256 + byteAt cells (offset + 1)))
  if sub32 len offset < 2 ∨ sub32 len offset < size then 65534 else size

def fieldSizeAt (cells : Bytes) (len : Nat) (type : ItemType) (offset : Nat) : Nat :=
  match type with
  | .uint8 | .int8 => 1
  | .uint16 | .int16 => 2
  | .uint32 | .int32 | .float => 4
  | .uint64 | .int64 | .double => 8
  | .string | .startOfBlock | .startOfList => stringSizeAt cells len offset
  | .endOfRecord | .endOfBlock | .endOfList | .unknown => 0

/-- The type byte and the key. -/
def headSizeAt (cells : Bytes) (len offset : Nat) : Nat :=
  wrap16 (1 + fieldSizeAt cells len (keyTypeAt cells offset) (wrap32 (offset + 1)))

def valueOffsetAt (cells : Bytes) (len offset : Nat) : Nat :=
  wrap32 (offset + headSizeAt cells len offset)

def valueSizeAt (cells : Bytes) (len offset : Nat) : Nat :=
  fieldSizeAt cells len (valueTypeAt cells offset) (valueOffsetAt cells len offset)

def itemSizeAt (cells : Bytes) (len offset : Nat) : Nat :=
  wrap16 (headSizeAt cells len offset + valueSizeAt cells len offset)

lemma fetch_one (m : Memory) (offset : Nat) :
    beNat (m.fetch offset 1).val = byteAt m.cells offset := by
  simp [Memory.fetch, beNat, byteAt]

lemma fetch_two (m : Memory) (offset : Nat) :
    beNat (m.fetch offset 2).val =
      byteAt m.cells offset * 256 + byteAt m.cells (offset + 1) := by
  simp [Memory.fetch, beNat, byteAt, List.range_succ]

lemma getSingleStringSize_val (d : Serializer) (offset : Nat) :
    toUint16 (deserializeGetSingleStringSize d offset).val =
      stringSizeAt d.buffer.data.cells d.buffer.size offset := by
  simp only [deserializeGetSingleStringSize, stringSizeAt]
  split
  · next short =>
    rw [if_pos (.inl short)]
    rfl
  · next room =>
    simp only [bind_val, fetch_two]
    split
    · next short =>
      rw [if_pos (.inr short)]
      rfl
    · next fits =>
      rw [if_neg (by simp only [not_or]; exact ⟨room, fits⟩)]
      exact toUint16_of_lt (wrap16_lt _)

lemma getSingleSize_val (d : Serializer) :
    (deserializeGetSingleSize d type offset).val =
      (fieldSizeAt d.buffer.data.cells d.buffer.size type offset : Nat) := by
  cases type <;>
    simp only [deserializeGetSingleSize, fieldSizeAt, bind_val, pure_val,
      getSingleStringSize_val] <;> rfl

/-- The length of a field is looked at unless less than two bytes are left;
behind the end of the buffer that difference is large. -/
lemma getSingleSize_inside (d : Serializer) (type : ItemType)
    (size : d.buffer.size < 4294967296) (small : offset < 4294967296) (some : 0 < d.buffer.size) :
    (deserializeGetSingleSize d type offset).Inside d.buffer.size ↔
      (hasLength type = true → offset ≤ d.buffer.size) := by
  have string : (deserializeGetSingleStringSize d offset).Inside d.buffer.size ↔
      offset ≤ d.buffer.size := by
    simp only [deserializeGetSingleStringSize]
    have room : sub32 d.buffer.size offset = if offset ≤ d.buffer.size then
      d.buffer.size - offset else d.buffer.size + 4294967296 - offset := rfl
    split
    · next short =>
      simp only [inside_pure, true_iff]
      split at room <;> omega
    · next long =>
      rw [inside_bind, fetch_inside]
      have rest : (if sub32 d.buffer.size offset <
            wrap16 (2 + beNat (d.buffer.data.fetch offset 2).val) then pure (-2)
          else pure ↑(wrap16 (2 + beNat (d.buffer.data.fetch offset 2).val)) :
            Access Int).Inside d.buffer.size := by
        split <;> exact inside_pure
      simp only [rest, and_true]
      split at room <;> omega
  cases type <;>
    simp [deserializeGetSingleSize, hasLength, string]

section
variable {d : Serializer}

lemma getKeySubtype_val (inside : d.status.used < d.buffer.size) :
    (deserializeGetKeySubtype d).val = keyTypeAt d.buffer.data.cells d.status.used := by
  rw [deserializeGetKeySubtype, if_neg (not_le.mpr inside), bind_val,
    pure_val, fetch_one, keyTypeAt]

lemma getValueSubtype_val (inside : d.status.used < d.buffer.size) :
    (deserializeGetValueSubtype d).val = valueTypeAt d.buffer.data.cells d.status.used := by
  rw [deserializeGetValueSubtype, if_neg (not_le.mpr inside), bind_val,
    pure_val, fetch_one, valueTypeAt]

lemma getKeySubtype_inside (d : Serializer) :
    (deserializeGetKeySubtype d).Inside d.buffer.size := by
  rw [deserializeGetKeySubtype]
  split
  · exact inside_pure
  · next inside =>
    rw [inside_bind, fetch_inside]
    exact ⟨.inr (by omega), inside_pure⟩

lemma getValueSubtype_inside (d : Serializer) :
    (deserializeGetValueSubtype d).Inside d.buffer.size := by
  rw [deserializeGetValueSubtype]
  split
  · exact inside_pure
  · next inside =>
    rw [inside_bind, fetch_inside]
    exact ⟨.inr (by omega), inside_pure⟩

variable (inside : d.status.used < d.buffer.size)
include inside

lemma buffDiff_pos : ¬d.buffDiff < 1 := by
  rw [Serializer.buffDiff, sub32_of_le (le_of_lt inside)]
  omega

lemma locateKey_val :
    (locateKey d).val = some (keyTypeAt d.buffer.data.cells d.status.used,
      fieldSizeAt d.buffer.data.cells d.buffer.size (keyTypeAt d.buffer.data.cells d.status.used)
        (wrap32 (d.status.used + 1))) := by
  simp only [locateKey, if_neg (buffDiff_pos inside), bind_val, getKeySubtype_val inside,
    getSingleSize_val, if_neg (Int.not_lt.mpr (Int.natCast_nonneg _)), pure_val,
    Int.toNat_natCast]

lemma locateValue_val :
    (locateValue d).val = some (valueTypeAt d.buffer.data.cells d.status.used,
      headSizeAt d.buffer.data.cells d.buffer.size d.status.used,
      valueSizeAt d.buffer.data.cells d.buffer.size d.status.used) := by
  simp only [locateValue, bind_val, locateKey_val inside, getValueSubtype_val inside,
    getSingleSize_val, if_neg (Int.not_lt.mpr (Int.natCast_nonneg _)), pure_val,
    Int.toNat_natCast]
  rfl

/-- Inside the buffer the deserializer always finds an item to skip. -/
lemma deserializeNext_val :
    (deserializeNext d).val =
      ok (d.advance (itemSizeAt d.buffer.data.cells d.buffer.size d.status.used)) := by
  simp only [deserializeNext, bind_val, locateValue_val inside]
  rfl

omit inside

lemma deserializeNext_end (atEnd : d.status.used = d.buffer.size) :
    (deserializeNext d).val.rc = -2 := by
  have diff : d.buffDiff = 0 := by
    rw [Serializer.buffDiff, sub32_of_le (le_of_eq atEnd)]
    omega
  simp [deserializeNext, locateValue, locateKey, diff]

/-- Behind the end the remaining size is negative, read as a large unsigned
number, and there is an item of one byte. -/
lemma deserializeNext_behind (behind : d.buffer.size < d.status.used)
    (small : d.status.used < 4294967296) : (deserializeNext d).val = ok (d.advance 1) := by
  have diff : ¬d.buffDiff < 1 := by
    rw [Serializer.buffDiff, sub32_of_lt behind]
    omega
  have key : (deserializeGetKeySubtype d).val = .unknown := by
    rw [deserializeGetKeySubtype, if_pos (le_of_lt behind), pure_val]
  have value : (deserializeGetValueSubtype d).val = .unknown := by
    rw [deserializeGetValueSubtype, if_pos (le_of_lt behind), pure_val]
  have located : (locateKey d).val = some (.unknown, 0) := by
    simp only [locateKey, if_neg diff, bind_val, key, getSingleSize_val, fieldSizeAt]
    rfl
  have valued : (locateValue d).val = some (.unknown, 1, 0) := by
    simp only [locateValue, bind_val, located, value, getSingleSize_val, fieldSizeAt]
    rfl
  simp only [deserializeNext, bind_val, valued]
  rfl

/-- What the deserializer skips, also behind the end of the buffer. -/
def skipAt (cells : Bytes) (len offset : Nat) : Nat :=
  if offset < len then itemSizeAt cells len offset else 1

/-- Everything a successful call does. -/
lemma deserializeNext_success (small : d.status.used < 4294967296)
    (success : (deserializeNext d).val.rc = 0) :
    d.status.used ≠ d.buffer.size ∧ (deserializeNext d).val.ser =
      d.advance (skipAt d.buffer.data.cells d.buffer.size d.status.used) := by
  rcases Nat.lt_trichotomy d.status.used d.buffer.size with inside | atEnd | behind
  · rw [deserializeNext_val inside, skipAt, if_pos inside]
    exact ⟨ne_of_lt inside, rfl⟩
  · rw [deserializeNext_end atEnd] at success
    exact absurd success (by decide : (-2 : Int) ≠ 0)
  · rw [deserializeNext_behind behind small, skipAt, if_neg (lt_asymm behind)]
    exact ⟨ne_of_gt behind, rfl⟩

/-- It fails at the end of the buffer only. -/
lemma deserializeNext_rc (small : d.status.used < 4294967296)
    (elsewhere : d.status.used ≠ d.buffer.size) : (deserializeNext d).val.rc = 0 := by
  rcases Nat.lt_or_gt_of_ne elsewhere with inside | behind
  · rw [deserializeNext_val inside]
    rfl
  · rw [deserializeNext_behind behind small]
    rfl

end

/-- A buffer that `ndpi_init_deserializer_buf` accepts, with what the record of
the deserializer held before; the memory may go on behind the buffer. -/
structure AcceptedBuffer where
  before : Serializer
  data : Memory
  len : UInt32
  accepted : (initDeserializerBuf before (some data) len).rc = 0

/-- The deserializer on the first item. -/
def AcceptedBuffer.start (b : AcceptedBuffer) : Serializer :=
  (initDeserializerBuf b.before (some b.data) b.len).ser

lemma resetSerializer_size : (resetSerializer s).buffer.size = s.buffer.size := by
  unfold resetSerializer
  dsimp only
  split
  · split <;> split <;> rfl
  · rfl
  · rfl

lemma resetSerializer_used : (resetSerializer s).status.used < 4294967296 := by
  unfold resetSerializer
  dsimp only
  split
  · split <;> split <;>
      first | exact wrap32_lt _ | exact Nat.zero_lt_of_lt (Nat.lt_succ_self _)
  · exact Nat.zero_lt_of_lt (Nat.lt_succ_self _)
  · exact Nat.lt_of_sub_eq_succ rfl

variable (b : AcceptedBuffer)

lemma AcceptedBuffer.start_eq :
    2 ≤ b.len.toNat ∧ ∃ s, s.buffer.size = b.len.toNat ∧ b.start = resetSerializer s := by
  have accepted := b.accepted
  unfold AcceptedBuffer.start
  simp only [initDeserializerBuf] at accepted ⊢
  split at accepted
  · exact absurd accepted (by decide : (-1 : Int) ≠ 0)
  · next long =>
    rw [if_neg long]
    split at accepted
    · exact absurd accepted (by decide : (-2 : Int) ≠ 0)
    · next version =>
      rw [if_neg version]
      exact ⟨Nat.le_of_not_lt long, _, rfl, rfl⟩

lemma AcceptedBuffer.start_size : b.start.buffer.size = b.len.toNat := by
  obtain ⟨-, s, size, start⟩ := b.start_eq
  rw [start, resetSerializer_size, size]

lemma AcceptedBuffer.start_used : b.start.status.used < 4294967296 := by
  obtain ⟨-, s, -, start⟩ := b.start_eq
  rw [start]
  exact resetSerializer_used

lemma AcceptedBuffer.len_lt : b.len.toNat < 4294967296 := b.len.toNat_lt

/-- The positions reached by repeated successful `ndpi_deserialize_next` calls. -/
inductive Reached (start : Serializer) : Serializer → Prop
  | start : Reached start start
  | next {d : Serializer} : Reached start d → (deserializeNext d).val.rc = 0 →
      Reached start (deserializeNext d).val.ser

lemma Reached.buffer {start : Serializer} (small : start.status.used < 4294967296)
    (reached : Reached start d) :
    d.buffer = start.buffer ∧ d.status.used < 4294967296 := by
  induction reached with
  | start => exact ⟨rfl, small⟩
  | next _ success ih =>
    rw [(deserializeNext_success ih.2 success).2]
    exact ⟨ih.1, wrap32_lt _⟩

end Ndpi.Refinement
