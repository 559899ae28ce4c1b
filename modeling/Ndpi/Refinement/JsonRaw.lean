import Ndpi.Refinement.JsonBounds

/-!
# Raw records in a JSON serializer

`ndpi_serialize_raw_record` copies a finished record between the others. It is the
one operation that computes the space it needs in 16 bits, and the one that moves
the offset before it has the space.
-/
namespace Ndpi.Refinement
open Lib Source.Serialization Memory

section
variable {multiline : Bool} {s : Serializer}

/-- A serializer that holds no record yet, by its offset. -/
def rawEmpty (s : Serializer) : Bool := s.status.used == if s.multilineJsonArray then 2 else 3

def rawNeeded (record : RawRecord) (s : Serializer) : Nat :=
  wrap16 (record.bytes.length + if rawEmpty s then 1 else 3)

/-- The empty object is taken back. -/
def rawMoved (empty : Bool) (s : Serializer) : Serializer :=
  if empty then { s with status.used := if s.multilineJsonArray then 0 else 2 } else s

/-- The record with the comma or blank before it and the bracket after it. -/
def rawWritten (empty : Bool) (record : RawRecord) (s : Serializer) : Serializer :=
  if s.multilineJsonArray then s.append record.bytes
  else if empty then
    (s.takeBack.append record.bytes).storeAll (s.takeBack.append record.bytes).status.used [0x5D]
  else
    let r := (s.storeAll (sub32 s.status.used 1) [0x2C]).append record.bytes
    (r.storeAll r.status.used [0x5D]).advance 1

variable (empty : Bool) (heap : Heap)

lemma rawMoved_reserve (needed : Nat) (empty : Bool) :
    (if s.buffDiff < needed then
      match extendSerializerBuffer heap (rawMoved empty s).buffer (needed - s.buffDiff) with
      | some buffer => ok { rawMoved empty s with buffer := buffer }
      | none => failed (rawMoved empty s)
    else ok (rawMoved empty s)) =
      ⟨(s.reserve heap needed).rc, rawMoved empty (s.reserve heap needed).ser⟩ := by
  have buffer : (rawMoved empty s).buffer = s.buffer := by cases empty <;> rfl
  rw [buffer]
  unfold Serializer.reserve
  split
  · cases extendSerializerBuffer heap s.buffer (needed - s.buffDiff) with
    | some grown => cases empty <;> rfl
    | none => rfl
  · rfl

lemma rawWritten_json (record : RawRecord) (fmt : r.fmt = .json) :
    (let r := if r.fmt = .json ∧ r.multilineJsonArray = false then
        if empty = true then r.takeBack else r.storeAll (sub32 r.status.used 1) [0x2C]
      else r
    let r := r.append record.bytes
    if r.fmt = .json ∧ r.multilineJsonArray = false then
      let r := r.storeAll r.status.used [0x5D]
      if empty = true then r else r.advance 1
    else r) = rawWritten empty record r := by
  cases mode : r.multilineJsonArray with
  | true => simp [rawWritten, mode, Serializer.append, Serializer.advance, Serializer.storeAll]
  | false =>
    cases empty with
    | true =>
      simp [rawWritten, mode, fmt, Serializer.append, Serializer.advance, Serializer.storeAll,
        Serializer.takeBack]
    | false =>
      simp [rawWritten, mode, fmt, Serializer.append, Serializer.advance, Serializer.storeAll]

variable (record : RawRecord)

/-- `ndpi_serialize_raw_record` on a JSON serializer, in parts. The offset is moved
before the space is reserved, also if that fails. -/
lemma serializeRawRecord_json (fmt : s.fmt = .json) :
    serializeRawRecord heap record s =
      Outcome.andThen ⟨(s.reserve heap (rawNeeded record s)).rc,
          rawMoved (rawEmpty s) (s.reserve heap (rawNeeded record s)).ser⟩
        fun r => ok (serializeEndOfRecord heap (rawWritten (rawEmpty s) record r)).ser := by
  have empty : (s.status.used = if s.multilineJsonArray then 2 else 3) = (rawEmpty s = true) := by
    simp [rawEmpty]
  have moved : (if s.fmt = .json ∧ s.status.used = (if s.multilineJsonArray then 2 else 3) then
      { s with status.used := if s.multilineJsonArray then 0 else 2 } else s) =
      rawMoved (rawEmpty s) s := by
    simp [empty, fmt, rawMoved]
  have needed : wrap16 (record.bytes.length + if s.fmt = .json then
      if s.status.used = (if s.multilineJsonArray then 2 else 3) then 1 else 3 else 0) =
      rawNeeded record s := by
    simp [empty, fmt, rawNeeded]
  have reserved := rawMoved_reserve (s := s) heap (rawNeeded record s) (rawEmpty s)
  unfold serializeRawRecord
  dsimp only
  rw [moved, needed]
  refine (congrArg (fun o : Outcome => o.andThen _) reserved).trans ?_
  simp only [empty]
  cases run : s.reserve heap (rawNeeded record s) with
  | mk rc r =>
    have json : (rawMoved (rawEmpty s) r).fmt = .json := by
      have kept : r.fmt = .json := by
        rw [show r = (s.reserve heap (rawNeeded record s)).ser by rw [run], reserve_fmt, fmt]
      cases rawEmpty s <;> exact kept
    unfold Outcome.andThen
    split
    · exact congrArg (fun t => ok (serializeEndOfRecord heap t).ser) (rawWritten_json _ record json)
    · rfl

/-- The bytes below the comma or blank the record is written after are kept. -/
lemma footprint_rawWritten (low room : Nat) (empty : Bool) (record : RawRecord)
    (above : Above low (if s.multilineJsonArray then 0 else 1) (record.bytes.length + (1 + room)) s) :
    Footprint low s (rawWritten empty record s) ∧ Above low 0 room (rawWritten empty record s) := by
  unfold rawWritten
  split
  · next multi =>
    rw [if_pos multi] at above
    have past : Above low 0 (1 + room) (s.append record.bytes) := above.advance rfl
    exact ⟨footprint_append _ above.le, past.mono (Nat.le_refl 0) (by omega)⟩
  · next single =>
    rw [if_neg single] at above
    have back : Above low 0 (record.bytes.length + (1 + room)) s.takeBack := Above.takeBack above
    split
    · have copied := (footprint_takeBack low s).trans (footprint_append record.bytes back.le)
      have past : Above low 0 (1 + room) (s.takeBack.append record.bytes) := back.advance rfl
      exact ⟨copied.trans (footprint_storeAll _ _ past.le),
        (past.mono (Nat.le_refl 0) (by omega)).same rfl⟩
    · have comma := footprint_storeAll s [0x2C] back.le
      have copied := comma.trans (footprint_append record.bytes above.le)
      have past : Above low 1 (1 + room)
          ((s.storeAll (sub32 s.status.used 1) [0x2C]).append record.bytes) :=
        Above.advance (s := s) above rfl
      exact ⟨(copied.trans (footprint_storeAll _ _ past.le)).withStatus _,
        (past.mono (Nat.zero_le 1) (Nat.le_refl _)).advance rfl⟩

lemma rawMoved_framed (framed : Framed multiline s) : Framed multiline (rawMoved empty s) := by
  cases empty with
  | true => exact framed.footprint ((Footprint.refl 0 s).withStatus _)
  | false => exact framed

lemma endOfRecord_takesForm : TakesForm heap (serializeEndOfRecord heap) .endOfRecord :=
  apply_takesForm heap .endOfRecord rfl

lemma raw_framed (framed : Framed multiline s) :
    Framed multiline (serializeRawRecord heap record s).ser := by
  have moved := rawMoved_framed (rawEmpty s) (reserve_framed heap (rawNeeded record s) framed)
  have written := moved.footprint (footprint_rawWritten 0 0 (rawEmpty s) record (.inl rfl)).1
  have ended := form_framed (endOfRecord_takesForm heap) written
  rw [serializeRawRecord_json heap record framed.fmt]
  unfold Outcome.andThen
  split
  · exact ended
  · exact moved

/-- A byte stored at the offset or before it. -/
lemma storeByte_inside (index : Nat) (byte : UInt8)
    (cells : s.buffer.data.cells.length = s.buffer.size) (room : index < s.buffer.size) :
    (s.storeAll index [byte]).buffer.data.stray = s.buffer.data.stray :=
  storeAll_inside _ _ _ (by rw [cells]; exact room)

lemma rawWritten_inside (framed : Framed multiline s)
    (back : multiline = false → 1 ≤ s.status.used)
    (room : s.status.used + record.bytes.length + 1 ≤ s.buffer.size) :
    Inbounds s (rawWritten empty record s) := by
  have cells := framed.cells
  have size := framed.size
  unfold rawWritten
  rw [framed.mode]
  cases multiline with
  | true =>
    obtain ⟨grows, used⟩ := append_grows record.bytes cells (by omega)
    exact ⟨grows.stray (by omega), by rw [if_pos rfl, used]; exact Nat.le_of_succ_le room⟩
  | false =>
    have back := back rfl
    have last : sub32 s.status.used 1 = s.status.used - 1 := sub32_of_le back
    cases empty with
    | true =>
      have moved : s.takeBack.status.used = s.status.used - 1 := last
      obtain ⟨grows, used⟩ := append_grows (s := s.takeBack) record.bytes cells (by omega)
      have same : s.takeBack.buffer.size = s.buffer.size := rfl
      have bracket := storeByte_inside (s.takeBack.append record.bytes).status.used 0x5D
        (grows.cells.trans cells) (by rw [used, grows.size]; omega)
      refine ⟨bracket.trans (grows.stray (by omega)), ?_⟩
      show (s.takeBack.append record.bytes).status.used ≤ s.buffer.size
      omega
    | false =>
      have comma := storeByte_inside (sub32 s.status.used 1) 0x2C cells (by omega)
      have cells' : (s.storeAll (sub32 s.status.used 1) [0x2C]).buffer.data.cells.length =
          s.buffer.size := (storeAll_length _ _ _).trans cells
      have small : s.status.used + record.bytes.length < 4294967296 := by omega
      obtain ⟨grows, used⟩ := append_grows (s := s.storeAll (sub32 s.status.used 1) [0x2C])
        record.bytes cells' small
      have bracket := storeByte_inside
        ((s.storeAll (sub32 s.status.used 1) [0x2C]).append record.bytes).status.used 0x5D
        (grows.cells.trans cells') (by rw [used, grows.size]; exact room)
      refine ⟨bracket.trans ((grows.stray (by rw [used]; exact Nat.le_of_succ_le room)).trans comma),
        ?_⟩
      show wrap32 (((s.storeAll (sub32 s.status.used 1) [0x2C]).append
        record.bytes).status.used + 1) ≤ s.buffer.size
      have past : s.status.used + record.bytes.length + 1 < 4294967296 := by omega
      rw [used]
      exact le_trans (le_of_eq (wrap32_of_lt past)) room

lemma rawMoved_used :
    (rawMoved empty s).status.used =
      if empty then (if s.multilineJsonArray then 0 else 2) else s.status.used := by
  cases empty <;> rfl

/-- The end of a record stays inside whatever it returns. -/
lemma endOfRecord_stays (framed : Framed multiline s) (inside : s.status.used ≤ s.buffer.size)
    (below : s.buffer.size + 2097152 ≤ 4294967296) :
    Inbounds s (serializeEndOfRecord heap s).ser := by
  obtain ⟨needed, -, -, same⟩ := endOfRecord_takesForm heap s framed.fmt
  by_cases granted : (s.reserve heap needed).rc = 0
  · have success : (serializeEndOfRecord heap s).rc = 0 := by
      rw [same, Outcome.andThen, if_pos granted]
      rfl
    exact form_inside (endOfRecord_takesForm heap) framed inside (Nat.zero_le _) below success
  · rw [same, Outcome.andThen, if_neg granted, reserve_failed granted]
    exact ⟨rfl, inside⟩

/-- A raw record shorter than `2 ^ 16 - 3` bytes that is accepted stays inside. -/
lemma raw_inside (framed : Framed multiline s) (inside : s.status.used ≤ s.buffer.size)
    (back : rawEmpty s = false → multiline = false → 1 ≤ s.status.used)
    (short : record.bytes.length + 3 < 65536) (below : s.buffer.size + 4194304 ≤ 4294967296)
    (success : (serializeRawRecord heap record s).rc = 0) :
    Inbounds s (serializeRawRecord heap record s).ser := by
  rw [serializeRawRecord_json heap record framed.fmt] at success ⊢
  obtain ⟨granted, -, result⟩ := andThen_success success
  rw [result]
  have needed : rawNeeded record s = record.bytes.length + if rawEmpty s then 1 else 3 := by
    apply Nat.mod_eq_of_lt
    split <;> omega
  have modest : rawNeeded record s ≤ 65536 := by
    rw [needed]
    split <;> omega
  obtain ⟨enlarged, room⟩ := reserve_enlarged heap framed.cells (by omega) (by omega)
    (le_trans modest (by decide))
  have room := room granted inside
  have bound := enlarged.bound
  have reserved := reserve_framed heap (rawNeeded record s) framed
  have moved := rawMoved_framed (rawEmpty s) reserved
  have status : (s.reserve heap (rawNeeded record s)).ser.status = s.status := by rw [enlarged.same]
  have used := rawMoved_used (s := (s.reserve heap (rawNeeded record s)).ser) (rawEmpty s)
  rw [reserved.mode, status] at used
  generalize (s.reserve heap (rawNeeded record s)).ser = r at *
  have same : (rawMoved (rawEmpty s) r).buffer = r.buffer := by cases rawEmpty s <;> rfl
  have written : Inbounds (rawMoved (rawEmpty s) r)
      (rawWritten (rawEmpty s) record (rawMoved (rawEmpty s) r)) := by
    apply rawWritten_inside _ record moved
    · intro single
      rw [used]
      split
      · rw [single]
        decide
      · next filled => exact back (Bool.eq_false_iff.mpr filled) single
    · rw [used, same]
      split at needed
      · next empty =>
        have start : s.status.used = if multiline then 2 else 3 := by
          rw [← framed.mode]
          exact of_decide_eq_true empty
        rw [if_pos empty]
        cases multiline <;> simp only [if_true, Bool.false_eq_true, if_false] at start ⊢ <;> omega
      · next filled =>
        rw [if_neg filled]
        omega
  obtain ⟨print, -⟩ := @footprint_rawWritten (rawMoved (rawEmpty s) r) 0 0 (rawEmpty s) record
    (.inl rfl)
  have ended := endOfRecord_stays heap (moved.footprint print) written.used
    (by rw [print.size, same]; omega)
  refine ⟨ended.stray.trans (written.stray.trans ?_), ended.used⟩
  rw [same, enlarged.stray]

lemma op_cases (op : Op) :
    (∃ form, Op.jsonForm op = some form) ∨ ∃ record, op = .rawRecord record := by
  cases op with
  | rawRecord record => exact .inr ⟨record, rfl⟩
  | _ => exact .inl ⟨_, rfl⟩

/-- How far before the offset a call writes. -/
def opReach (s : Serializer) (op : Op) : Nat :=
  match Op.jsonForm op with
  | some form => form.back s.multilineJsonArray s.status.flags
  | none => if rawEmpty s then 2 else if s.multilineJsonArray then 0 else 1

/-- How many bytes of its arguments it may write. -/
def opSpan : Op → Nat
  | .rawRecord record => record.bytes.length
  | op => ((Op.jsonForm op).map JsonForm.most).getD 0

lemma opSpan_form (shape : Op.jsonForm op = some form) : opSpan op = form.most := by
  cases op with
  | rawRecord => cases shape
  | _ => cases shape; rfl

lemma apply_framed (heap : Heap) (op : Op) (framed : Framed multiline s) :
    Framed multiline (op.apply heap s).ser := by
  rcases op_cases op with ⟨form, shape⟩ | ⟨record, rfl⟩
  · exact form_framed (apply_takesForm heap op shape) framed
  · exact raw_framed heap record framed

/-- What a call has to find for its success to mean that it stayed inside: its
offset inside the allocation and behind what it takes back, an allocation some way
below `2 ^ 32`, and a raw record whose needed space is computed without a wrap. -/
structure Ready (s : Serializer) (op : Op) : Prop where
  inside : s.status.used ≤ s.buffer.size
  behind : opReach s op ≤ s.status.used
  below : s.buffer.size + opSpan op + 4194304 ≤ 4294967296
  short : ∀ record, op = .rawRecord record → record.bytes.length < 65533

lemma apply_inside {heap : Heap} (framed : Framed multiline s) (ready : Ready s op)
    (success : (op.apply heap s).rc = 0) : Inbounds s (op.apply heap s).ser := by
  have behind := ready.behind
  have below := ready.below
  rcases op_cases op with ⟨form, shape⟩ | ⟨record, rfl⟩
  · rw [opReach, shape, framed.mode] at behind
    rw [opSpan_form shape] at below
    exact form_inside (apply_takesForm heap op shape) framed ready.inside behind (by omega) success
  · have short := ready.short record rfl
    refine raw_inside heap record framed ready.inside ?_ (by omega) (by omega) success
    intro filled single
    rw [← framed.mode] at single
    simp only [opReach, Op.jsonForm, filled, single, Bool.false_eq_true, if_false] at behind
    exact behind

end
end Ndpi.Refinement
