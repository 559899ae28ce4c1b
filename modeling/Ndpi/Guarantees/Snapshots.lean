import Ndpi.Guarantees.JsonBounds
import Ndpi.Refinement.JsonSnapshot

/-!
# Snapshots and rollbacks

A rollback after any calls gives back the buffer of the snapshot, if none of the
calls took back more of its text than the one closing character a rollback writes
again. Inside a list, and in an array between the end of a record and the next,
every operation takes back more.
-/
namespace Ndpi.Guarantees
open Lib Source.Serialization Refinement

/-- Every call finds the allocation some way below `2 ^ 32`. -/
def Roomy (calls : List Call) (s : Serializer) : Prop :=
  ∀ k < calls.length, (applyAll (calls.take k) s).buffer.size + 4194304 ≤ 4294967296

variable {s : Serializer} {low : Nat} {rest : List Call} {call : Call} {base : Serializer}

lemma Roomy.head (roomy : Roomy (call :: rest) s) : s.buffer.size + 4194304 ≤ 4294967296 :=
  roomy 0 (by simp)

lemma Roomy.tail (roomy : Roomy (call :: rest) s) :
    Roomy rest (call.op.apply call.heap s).ser := by
  intro k inside
  exact roomy (k + 1) (by simpa using inside)

variable {multiline : Bool}

/-- The states a JSON serializer reaches without raw records are sealed. -/
lemma runCalls_sealed (plain : ∀ call ∈ calls, ∀ record, call.op ≠ .rawRecord record)
    {s : Serializer} (roomy : Roomy calls s) (shows : Shows multiline s t)
    (covered : t.Covered multiline) (sealed : t.Sealed multiline)
    (run : runCalls calls s = some u) :
    ∃ t', Shows multiline u t' ∧ t'.Covered multiline ∧ t'.Sealed multiline := by
  induction calls generalizing s t with
  | nil =>
    cases run
    exact ⟨t, shows, covered, sealed⟩
  | cons call rest ih =>
    obtain ⟨success, clean, run⟩ := runCalls_cons run
    have below := roomy.head
    rcases op_cases call.op with ⟨form, shape⟩ | ⟨record, raw⟩
    · obtain ⟨t', shown, covered', sealed'⟩ := apply_sealed shape shows covered
        sealed (by omega) success clean
      exact ih (fun other member => plain other (by simp [member])) roomy.tail shown covered'
        sealed' run
    · exact absurd raw (plain call (by simp) record)

/-- Every later call finds the serializer steady. -/
def SteadyRun (low : Nat) (calls : List Call) (s : Serializer) : Prop :=
  ∀ k call, calls[k]? = some call → Steady low (applyAll (calls.take k) s) call.op

lemma SteadyRun.head (steady : SteadyRun low (call :: rest) s) :
    Steady low s call.op := steady 0 call rfl

lemma SteadyRun.tail (steady : SteadyRun low (call :: rest) s) :
    SteadyRun low rest (call.op.apply call.heap s).ser :=
  fun k other found => steady (k + 1) other found

lemma applyAll_since (s : Serializer) (some : 0 < low) (low_le : low ≤ base.buffer.size)
    (steady : SteadyRun low later s) (since : Since multiline low base s) :
    Since multiline low base (applyAll later s) := by
  induction later generalizing s with
  | nil => exact since
  | cons call rest ih =>
    exact ih _ steady.tail (apply_since call.heap call.op since some low_le steady.head)

/-- JSON: the text at the snapshot is shown again. -/
lemma json_rollback (shows : Shows multiline base t)
    (covered : t.Covered multiline) (sealed : t.Sealed multiline)
    (steady : SteadyRun (untouched base) later (serializerCreateSnapshot base)) :
    serializerGetBuffer (serializerRollbackSnapshot
        (applyAll later (serializerCreateSnapshot base))) = serializerGetBuffer base := by
  have framed := shows.framed
  have start : Since multiline (untouched base) base (serializerCreateSnapshot base) :=
    ⟨⟨framed.cells, framed.size, framed.fmt, framed.mode, framed.outer⟩, Nat.le_refl _, rfl, rfl,
      fun _ _ => .inl rfl⟩
  have low_le : untouched base ≤ base.buffer.size :=
    Nat.le_trans (Nat.sub_le _ _) shows.sound.inside
  have since := applyAll_since _ (untouched_pos shows covered sealed) low_le steady start
  rw [getBuffer_json (rollback_shows shows sealed since) sealed.solid,
    getBuffer_json shows sealed.solid]

lemma apply_lengthens (contained : Contained s) (steady : Steady low s op) :
    Contained (op.apply heap s).ser ∧ Lengthens s (op.apply heap s).ser := by
  have below := steady.below
  have inside := contained.sound.inside
  rcases op_cases op with ⟨form, shape⟩ | ⟨record, rfl⟩
  · have plain : ∀ record, op ≠ .rawRecord record := by
      rintro record rfl
      cases shape
    exact apply_stays heap op plain s contained inside (by omega)
  · exact stays_rawRecord heap (steady.short record rfl) s contained inside (by omega)

lemma applyAll_lengthens (s : Serializer) (steady : SteadyRun low later s)
    (contained : Contained s) :
    Contained (applyAll later s) ∧ Lengthens s (applyAll later s) := by
  induction later generalizing s with
  | nil => exact ⟨contained, .refl s⟩
  | cons call rest ih =>
    obtain ⟨middle, longer⟩ := apply_lengthens contained steady.head
    obtain ⟨after, longer'⟩ := ih _ steady.tail middle
    exact ⟨after, longer.trans longer'⟩

/-- TLV: the calls only added to the text. -/
lemma tlv_rollback (contained : Contained base)
    (steady : SteadyRun low later (serializerCreateSnapshot base)) :
    serializerGetBuffer (serializerRollbackSnapshot
        (applyAll later (serializerCreateSnapshot base))) = serializerGetBuffer base := by
  have start : Contained (serializerCreateSnapshot base) :=
    ⟨contained.fmt, ⟨⟨contained.sound.cells, contained.sound.size, contained.sound.used⟩,
      contained.sound.inside⟩, contained.clean⟩
  obtain ⟨after, longer⟩ := applyAll_lengthens _ steady start
  generalize applyAll later (serializerCreateSnapshot base) = s at after longer
  have notJson : s.fmt ≠ .json := by rw [after.fmt]; decide
  have has : s.hasSnapshot = true := longer.hasSnapshot
  have saved : s.snapshot = base.status := longer.snapshot
  have rolled : serializerRollbackSnapshot s =
      { s with status := base.status, hasSnapshot := false } := by
    unfold serializerRollbackSnapshot
    simp [has, saved, notJson]
  have shown := getBuffer_tlv (s := { s with status := base.status, hasSnapshot := false }) after.fmt
  rw [rolled, shown, getBuffer_tlv contained.fmt]
  exact longer.kept

lemma runCalls_applyAll {s : Serializer} (run : runCalls calls s = some u) :
    applyAll calls s = u := by
  induction calls generalizing s with
  | nil =>
    cases run
    rfl
  | cons call rest ih =>
    obtain ⟨-, -, run⟩ := runCalls_cons run
    exact ih run

/-- Let `base` be reached by successful calls, and let any calls follow a snapshot
of it, whatever they return. If no call takes back text of the snapshot but its
last closing character, a rollback gives back its buffer. -/
theorem rollback_gives_buffer_back (heap : Heap) (fmt : SerializationFormat) (n : UInt32)
    (fresh base : Serializer) (before later : List Call)
    (kind : fmt = .json ∨ fmt = .multilineJson ∨ fmt = .tlv) (large : fmt = .json → 4 ≤ n.toNat)
    (init : initSerializerLl heap fmt n = some fresh)
    (plain : ∀ call ∈ before, ∀ record, call.op ≠ .rawRecord record)
    (roomy : Roomy before fresh) (run : runCalls before fresh = some base)
    (steady : SteadyRun (untouched base) later (serializerCreateSnapshot base)) :
    serializerGetBuffer (serializerRollbackSnapshot
        (applyAll later (serializerCreateSnapshot base))) = serializerGetBuffer base := by
  have json : ∀ multiline, fmt = jsonFormat multiline →
      serializerGetBuffer (serializerRollbackSnapshot
        (applyAll later (serializerCreateSnapshot base))) = serializerGetBuffer base := by
    intro multiline same
    subst same
    have enough : (if multiline then 3 else 4) ≤ n.toNat := by
      cases multiline with
      | true => exact (init_eq init).1
      | false => exact large rfl
    obtain ⟨shows, -⟩ := init_shows init
    obtain ⟨t, shown, covered, sealed⟩ := runCalls_sealed plain roomy shows
      (init_covered init) (init_sealed enough init) run
    exact json_rollback shown covered sealed steady
  rcases kind with rfl | rfl | rfl
  · exact json false rfl
  · exact json true rfl
  · have contained := applyAll_contained before fresh plain
      (fun k inside => Nat.le_trans (Nat.add_le_add_left (by decide) _) (roomy k inside))
      (init_contained init)
    rw [runCalls_applyAll run] at contained
    exact tlv_rollback contained steady

/-- A JSON object with one number in it. -/
def oneNumber : Serializer := applyAll (callsOf [.item (.uint32 1) (.uint32 2)]) (jsonStart .json)

/-- A rollback past a second number and the end of the record. -/
theorem rollback_gives_buffer_back_sample :
    serializerGetBuffer (serializerRollbackSnapshot (applyAll
      (callsOf [.item (.uint32 3) (.uint32 4), .endOfRecord])
      (serializerCreateSnapshot oneNumber))) = serializerGetBuffer oneNumber := by
  have steady : SteadyRun (untouched oneNumber)
      (callsOf [.item (.uint32 3) (.uint32 4), .endOfRecord])
      (serializerCreateSnapshot oneNumber) := by
    intro k call found
    match k with
    | 0 =>
      cases found
      exact ⟨fun _ => by decide +kernel, by decide +kernel, by decide +kernel,
        fun _ raw => by cases raw⟩
    | 1 =>
      cases found
      exact ⟨fun _ => by decide +kernel, by decide +kernel, by decide +kernel,
        fun _ raw => by cases raw⟩
    | _ + 2 => cases found
  exact rollback_gives_buffer_back openHeap .json 64 (jsonStart .json) oneNumber
    (callsOf [.item (.uint32 1) (.uint32 2)])
    (callsOf [.item (.uint32 3) (.uint32 4), .endOfRecord]) (.inl rfl) (fun _ => by decide) rfl
    (by
      intro call member record
      obtain rfl : call = ⟨openHeap, .item (.uint32 1) (.uint32 2)⟩ := by
        simpa [callsOf] using member
      exact Op.noConfusion)
    (by
      intro k inside
      obtain rfl : k = 0 := by simpa [callsOf] using inside
      decide +kernel)
    (by decide +kernel) steady

/-- Inside a list the bracket that an item takes back is not written again. -/
theorem rollback_in_list_differs :
    ∃ base, runCalls (callsOf [.startOfList (.ofString [108])]) (jsonStart .json) = some base ∧
      serializerGetBuffer (serializerRollbackSnapshot (applyAll
        (callsOf [.item (.uint32 0) (.uint32 2)]) (serializerCreateSnapshot base))) ≠
          serializerGetBuffer base := by
  have differs : ((runCalls (callsOf [.startOfList (.ofString [108])]) (jsonStart .json)).map
      fun base => decide (serializerGetBuffer (serializerRollbackSnapshot (applyAll
        (callsOf [.item (.uint32 0) (.uint32 2)]) (serializerCreateSnapshot base))) ≠
          serializerGetBuffer base)) = some true := by
    decide +kernel
  obtain ⟨base, run, differ⟩ := Option.map_eq_some_iff.mp differs
  exact ⟨base, run, of_decide_eq_true differ⟩

end Ndpi.Guarantees
