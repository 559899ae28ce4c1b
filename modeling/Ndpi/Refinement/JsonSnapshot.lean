import Ndpi.Refinement.JsonRaw
import Ndpi.Refinement.JsonRun

/-!
# What a rollback needs

`ndpi_serializer_rollback_snapshot` puts back the offset and the flags, and writes
at most two characters: the one the text begins with and the closing character it
ends with. Both are what the text had there, so the text is as it was if no
operation since took back more than that one closing character.
-/
namespace Ndpi.Refinement
open Lib Source.Serialization List Memory

/-- The text begins and ends as its flags say. -/
structure JsonText.Sealed (multiline : Bool) (t : JsonText) : Prop where
  solid : t.Solid
  first : multiline = false → t.text[0]? = some (if t.flags.array then 0x5B else 0x20)
  last : (multiline = true → t.flags.array = false) →
    t.text.getLast? = some (if t.flags.array then 0x5D else 0x7D)
  kept : 1 ≤ t.committed multiline
  ended : t.flags.eor = true → t.flags.array = true

section
variable {multiline : Bool} {t : JsonText} {b : UInt8}

/-- What is written after the first character does not change it. -/
lemma append_first {text : Bytes} (first : text[0]? = some b) : (text ++ rest)[0]? = some b := by
  cases text with
  | nil => cases first
  | cons c text => exact first

lemma prepared_first (kept : 1 ≤ t.committed multiline) (first : t.text[0]? = some b) :
    (t.prepared multiline).text[0]? = some b := by
  apply append_first
  rw [getElem?_take_of_lt (by exact kept)]
  exact first

lemma closing_last (single : multiline = true → flags.array = false) :
    (rest ++ closing multiline flags).getLast? = some (if flags.array then 0x5D else 0x7D) := by
  rw [closing, ← append_assoc, getLast?_append]
  cases multiline with
  | true => rw [single rfl]; rfl
  | false => cases flags.array <;> rfl

lemma openedFlags_array (flags : StatusFlags) : (openedFlags flags).array = flags.array := by
  unfold openedFlags
  split
  · rfl
  · split <;> rfl

lemma written_first (first : t.text[0]? = some b) :
    (t.written size key value).text[0]? = some b := by
  unfold JsonText.written
  split
  · exact append_first first
  · exact append_first (append_first first)

/-- Text that is closed after the flags it has. -/
lemma finished_ends {q : JsonText} {array : Bool} (same : q.flags.array = array)
    (first : multiline = false → q.text[0]? = some (if array then 0x5B else 0x20)) :
    (multiline = false →
        (q.finished multiline).text[0]? = some (if array then 0x5B else 0x20)) ∧
      ((multiline = true → array = false) →
        (q.finished multiline).text.getLast? = some (if array then 0x5D else 0x7D)) := by
  subst same
  exact ⟨fun single => append_first (first single), closing_last⟩

lemma step_ended (ended : t.flags.eor = true → t.flags.array = true) :
    (t.step multiline size form).flags.eor = true →
      (t.step multiline size form).flags.array = true := by
  have opened := openedFlags_eor t.flags
  intro isOver
  cases form with
  | item key value =>
    have same : ((t.prepared multiline).written size key value).flags.eor = true := isOver
    rw [written_flags] at same
    exact absurd (same.symm.trans opened) (by decide)
  | startOfList name => exact absurd (isOver.symm.trans opened) (by decide)
  | startOfBlock name => exact absurd (isOver.symm.trans opened) (by decide)
  | endOfList => exact ended isOver
  | endOfBlock => exact ended isOver
  | endOfRecord => rfl

lemma step_sealed (covered : t.Covered multiline) (sealed : t.Sealed multiline) :
    (t.step multiline size form).Sealed multiline := by
  have grown := (step_committed size covered form).2
  have array := openedFlags_array t.flags
  have opened : multiline = false →
      (t.prepared multiline).text[0]? = some (if t.flags.array then 0x5B else 0x20) :=
    fun single => prepared_first sealed.kept (sealed.first single)
  suffices ends : (multiline = false → (t.step multiline size form).text[0]? =
        some (if (t.step multiline size form).flags.array then 0x5B else 0x20)) ∧
      ((multiline = true → (t.step multiline size form).flags.array = false) →
        (t.step multiline size form).text.getLast? =
          some (if (t.step multiline size form).flags.array then 0x5D else 0x7D)) from
    ⟨step_solid sealed.solid size form, ends.1, ends.2, le_trans sealed.kept grown,
      step_ended sealed.ended⟩
  cases form with
  | item key value =>
    have same : ((t.prepared multiline).written size key value).flags.array = t.flags.array := by
      rw [written_flags]
      exact array
    have ends := finished_ends same fun single => written_first (opened single)
    rw [← same] at ends
    exact ends
  | startOfList name =>
    have ends := @finished_ends multiline { (t.prepared multiline).named size name [0x3A, 0x20, 0x5B]
      with flags.list := true, flags.sol := true } _ array fun single =>
        append_first (append_first (opened single))
    rw [← array] at ends
    exact ends
  | startOfBlock name =>
    have ends := @finished_ends multiline ((t.prepared multiline).named size name [0x3A, 0x20, 0x7B])
      _ array fun single => append_first (append_first (opened single))
    rw [← array] at ends
    exact ends
  | endOfList => exact ⟨sealed.first, sealed.last⟩
  | endOfBlock =>
    exact @finished_ends multiline { t with flags.sob := false, flags.ceob := true } _ rfl
      sealed.first
  | endOfRecord =>
    cases multiline with
    | true => exact ⟨fun single => (by cases single), fun single => (by cases single rfl)⟩
    | false =>
      have first := sealed.first rfl
      have last := sealed.last (by intro single; cases single)
      simp only [JsonText.step, Bool.false_eq_true, if_false, if_true]
      cases within : t.flags.array with
      | true =>
        rw [within] at first last
        exact ⟨fun _ => first, fun _ => last⟩
      | false =>
        refine ⟨fun _ => append_first ?_, fun _ => getLast?_concat⟩
        cases shape : t.text with
        | nil =>
          rw [shape] at first
          cases first
        | cons c text => rfl

variable {s : Serializer}

lemma Shows.framed (shows : Shows multiline s t) : Framed multiline s :=
  ⟨shows.sound.cells, shows.sound.size, shows.fmt, shows.mode, shows.outer⟩

/-- A call that returns 0 on an allocation some way below `2 ^ 32` keeps the text
sealed. -/
lemma apply_sealed (shape : Op.jsonForm op = some form)
    (shows : Shows multiline s t) (covered : t.Covered multiline) (sealed : t.Sealed multiline)
    (below : s.buffer.size + 2097152 ≤ 4294967296) (success : (op.apply heap s).rc = 0)
    (clean : Clean (op.apply heap s).ser) :
    ∃ t', Shows multiline (op.apply heap s).ser t' ∧ t'.Covered multiline ∧
      t'.Sealed multiline := by
  rcases apply_shows heap op shape shows covered success clean with ⟨shown, -⟩ | ⟨lost, rfl, -⟩
  · exact ⟨_, shown, (step_committed _ covered form).1, step_sealed covered sealed⟩
  · -- the offset of a lost buffer is outside, that of an ended record is not
    obtain rfl := jsonForm_ends.2 shape
    have ended := endOfRecord_stays heap shows.framed shows.sound.inside below
    exact absurd ended.used lost.not_fits

lemma init_sealed (large : (if multiline then 3 else 4) ≤ n.toNat)
    (init : initSerializerLl heap (jsonFormat multiline) n = some s) :
    JsonText.Sealed multiline ⟨{}, s.text⟩ := by
  obtain ⟨-, -, -, brace, text⟩ := init_shows init
  refine ⟨⟨0x7B, brace, rfl⟩, ?_, ?_, ?_, fun isOver => by cases isOver⟩
  all_goals
    rw [text large]
    cases multiline <;> simp [freshText, JsonText.committed, closers]

end

section
variable {multiline : Bool} {low : Nat} {base s t : Serializer}

/-- A state since the snapshot of `base`: the first `low` bytes are the same, up to
the bracket at the start. -/
structure Since (multiline : Bool) (low : Nat) (base s : Serializer) : Prop where
  framed : Framed multiline s
  size : base.buffer.size ≤ s.buffer.size
  hasSnapshot : s.hasSnapshot = true
  snapshot : s.snapshot = base.status
  kept : ∀ i < low, s.buffer.data.cells[i]? = base.buffer.data.cells[i]? ∨
    i = 0 ∧ multiline = false ∧ s.buffer.data.cells[0]? = some 0x5B

lemma take_getElem? {cells cells' : Bytes} (same : cells'.take low = cells.take low) {i : Nat}
    (below : i < low) : cells'[i]? = cells[i]? := by
  rw [← getElem?_take_of_lt below, same, getElem?_take_of_lt below]

variable (since : Since multiline low base s)
include since

lemma Since.take (framed : Framed multiline t) (size : s.buffer.size ≤ t.buffer.size)
    (hasSnapshot : t.hasSnapshot = s.hasSnapshot) (snapshot : t.snapshot = s.snapshot)
    (same : t.buffer.data.cells.take low = s.buffer.data.cells.take low) :
    Since multiline low base t := by
  refine ⟨framed, le_trans since.size size, hasSnapshot.trans since.hasSnapshot,
    snapshot.trans since.snapshot, fun i below => ?_⟩
  rcases since.kept i below with kept | ⟨rfl, single, bracket⟩
  · exact .inl ((take_getElem? same below).trans kept)
  · exact .inr ⟨rfl, single, (take_getElem? same below).trans bracket⟩

lemma Since.footprint (print : Footprint low s t) : Since multiline low base t := by
  have frame := print.frame
  apply since.take (since.framed.footprint print) (le_of_eq print.size.symm) _ _ print.kept
  · rw [frame]
  · rw [frame]

variable (heap : Heap)

lemma Since.reserve
    (low_le : low ≤ base.buffer.size) (below : s.buffer.size + 2097152 ≤ 4294967296)
    (offset : s.status.used + 1048576 ≤ 4294967296) (modest : needed ≤ 1048576) :
    Since multiline low base (s.reserve heap needed).ser := by
  obtain ⟨enlarged, -⟩ := reserve_enlarged heap since.framed.cells below offset modest
  have size := since.size
  apply since.take (reserve_framed heap needed since.framed) enlarged.grown _ _
    (enlarged.kept low (by omega))
  · rw [enlarged.same]
  · rw [enlarged.same]

/-- The end of the first record in an array writes the bracket. -/
lemma Since.bracketed (low_le : low ≤ base.buffer.size) (form : JsonForm) :
    Since multiline low base (form.bracketed s) := by
  unfold JsonForm.bracketed
  split
  · next first =>
    have framed := since.framed.footprint (footprint_storeAll s [0x5B] (le_refl 0))
    refine ⟨framed, since.size, since.hasSnapshot, since.snapshot, fun i below => ?_⟩
    have size := since.size
    have inside : 0 + [(0x5B : UInt8)].length ≤ s.buffer.data.cells.length := by
      rw [since.framed.cells, length_singleton]
      omega
    have stored := fun i => storeAll_getElem? [0x5B] s.buffer.data 0 i inside
    by_cases start : i = 0
    · subst start
      exact .inr ⟨rfl, since.framed.mode.symm.trans first.2.1, stored 0⟩
    · have later : ¬(0 ≤ i ∧ i < 0 + [(0x5B : UInt8)].length) := by
        rw [length_singleton]
        omega
      rcases since.kept i below with kept | ⟨zero, -⟩
      · exact .inl (((stored i).trans (if_neg later)).trans kept)
      · exact absurd zero start
  · exact since

omit since

/-- Behind the offset, whatever an operation returns, only what it takes back and
the bracket change. -/
lemma form_since {heap : Heap}
    (takes : TakesForm heap f form) (since : Since multiline low base s)
    (low_le : low ≤ base.buffer.size) (below : s.buffer.size + 2097152 ≤ 4294967296)
    (behind : low + form.back s.multilineJsonArray s.status.flags ≤ s.status.used)
    (ahead : s.status.used + form.most + 1048576 ≤ 4294967296) :
    Since multiline low base (f s).ser := by
  obtain ⟨needed, -, modest, same⟩ := takes s since.framed.fmt
  have reserved := since.reserve heap low_le below (by omega) modest
  rw [same]
  unfold Outcome.andThen
  split
  · have status : (s.reserve heap needed).ser.status = s.status := by rw [reserve_same]
    apply (reserved.bracketed low_le form).footprint
    apply footprint_body reserved.framed.outer
    rw [reserve_mode, status]
    exact .inr ⟨by rw [status]; exact behind, by rw [status]; omega⟩
  · exact reserved

lemma raw_since (since : Since multiline low base s) (some : 0 < low)
    (low_le : low ≤ base.buffer.size) (below : s.buffer.size + 4194304 ≤ 4294967296)
    (behind : low + (if rawEmpty s then 2 else if s.multilineJsonArray then 0 else 1) ≤
      s.status.used) (ahead : s.status.used + record.bytes.length + 2097152 ≤ 4294967296) :
    Since multiline low base (serializeRawRecord heap record s).ser := by
  have modest : rawNeeded record s ≤ 1048576 :=
    le_trans (le_of_lt (Nat.mod_lt _ (by decide))) (by decide : 65536 ≤ 1048576)
  have reserved := since.reserve heap low_le (by omega) (by omega) modest
  obtain ⟨enlarged, -⟩ := reserve_enlarged heap since.framed.cells (by omega) (by omega) modest
  have bound := enlarged.bound
  have status : (s.reserve heap (rawNeeded record s)).ser.status = s.status := by rw [reserve_same]
  have used := rawMoved_used (s := (s.reserve heap (rawNeeded record s)).ser) (rawEmpty s)
  rw [reserve_mode, status] at used
  have moved : Since multiline low base
      (rawMoved (rawEmpty s) (s.reserve heap (rawNeeded record s)).ser) := by
    unfold rawMoved
    split
    · exact reserved.footprint ((Footprint.refl low _).withStatus _)
    · exact reserved
  have mode := moved.framed.mode.trans since.framed.mode.symm
  rw [serializeRawRecord_json heap record since.framed.fmt]
  generalize (s.reserve heap (rawNeeded record s)).ser = r at *
  have same : (rawMoved (rawEmpty s) r).buffer = r.buffer := by cases rawEmpty s <;> rfl
  have above : Above low (if s.multilineJsonArray then 0 else 1)
      (record.bytes.length + (1 + 1048576)) (rawMoved (rawEmpty s) r) := by
    right
    rw [used]
    cases empty : rawEmpty s with
    | true =>
      have start : s.status.used = if s.multilineJsonArray then 2 else 3 := of_decide_eq_true empty
      rw [empty] at behind
      cases single : s.multilineJsonArray <;>
        simp only [single, if_true, Bool.false_eq_true, if_false] at start behind ⊢ <;> omega
    | false =>
      rw [empty] at behind
      simp only [Bool.false_eq_true, if_false] at behind ⊢
      exact ⟨behind, by omega⟩
  unfold Outcome.andThen
  split
  · rw [← mode] at above
    obtain ⟨print, past⟩ := footprint_rawWritten low 1048576 (rawEmpty s) record above
    have written := moved.footprint print
    have size := print.size
    rcases past with zero | ⟨behind, ahead⟩
    · omega
    · have ended := form_since (endOfRecord_takesForm heap) written low_le
        (by rw [size, same]; omega) behind (le_of_lt ahead)
      exact ended
  · exact moved

/-- The bytes of a text that a rollback does not write again. -/
def untouched (base : Serializer) : Nat :=
  base.status.used - if base.multilineJsonArray && base.status.flags.array then 0 else 1

variable {text : JsonText}

lemma untouched_pos (shows : Shows multiline base text) (covered : text.Covered multiline)
    (sealed : text.Sealed multiline) : 0 < untouched base := by
  have length := shows.length
  have kept := sealed.kept
  have ended := sealed.ended
  unfold JsonText.Covered at covered
  unfold JsonText.committed at kept
  unfold untouched
  rw [shows.mode, shows.flags]
  cases multiline with
  | false =>
    have some : 1 ≤ closers false text.flags := by
      unfold closers
      split
      · rfl
      · omega
    simp only [Bool.false_and, Bool.false_eq_true, if_false]
    omega
  | true =>
    cases array : text.flags.array with
    | true =>
      simp only [Bool.and_self, if_true]
      omega
    | false =>
      have within : text.flags.eor = false := by
        by_contra isOver
        rw [ended (Bool.not_eq_false _ ▸ isOver)] at array
        cases array
      have one : closers true text.flags = 1 := by
        simp [closers, within]
      simp only [Bool.and_false, Bool.false_eq_true, if_false]
      omega

/-- What a call has to find for a later rollback: what it takes back is not part of
the text at the snapshot, and neither the allocation nor the offset is near `2 ^ 32`. -/
structure Steady (low : Nat) (s : Serializer) (op : Op) : Prop where
  behind : s.fmt = .json → low + opReach s op ≤ s.status.used
  below : s.buffer.size + 4194304 ≤ 4294967296
  ahead : s.status.used + opSpan op + 2097152 ≤ 4294967296
  short : ∀ record, op = .rawRecord record → record.bytes.length < 65536

lemma apply_since (op : Op) (since : Since multiline low base s) (some : 0 < low)
    (low_le : low ≤ base.buffer.size) (steady : Steady low s op) :
    Since multiline low base (op.apply heap s).ser := by
  have behind := steady.behind since.framed.fmt
  have below := steady.below
  have ahead := steady.ahead
  rcases op_cases op with ⟨form, shape⟩ | ⟨record, rfl⟩
  · rw [opReach, shape] at behind
    rw [opSpan_form shape] at ahead
    exact form_since (apply_takesForm heap op shape) since low_le (by omega) behind (by omega)
  · exact raw_since heap since some low_le below behind ahead

lemma storeByte_getElem? {m : Memory} {index : Nat} (inside : index < m.cells.length) :
    (m.storeAll index [byte]).cells[i]? = if i = index then some byte else m.cells[i]? := by
  rw [storeAll_getElem? [byte] m index i inside, length_singleton]
  by_cases same : i = index
  · subst same
    rw [if_pos (by omega), if_pos rfl, Nat.sub_self, getElem?_cons_zero]
  · rw [if_neg (by omega), if_neg same]

lemma Shows.text_getElem? {text : JsonText} (shows : Shows multiline base text)
    (inside : i < base.status.used) : base.buffer.data.cells[i]? = text.text[i]? := by
  rw [← shows.text, Serializer.text, getElem?_take_of_lt inside]

lemma Shows.last (shows : Shows multiline base text) (some : 0 < base.status.used) :
    base.buffer.data.cells[base.status.used - 1]? = text.text.getLast? := by
  rw [shows.text_getElem? (by omega), getLast?_eq_getElem?, shows.length]

/-- A serializer with the status of `base` and its bytes shows the same text. -/
lemma Shows.again (shows : Shows multiline base text) (framed : Framed multiline t)
    (status : t.status = base.status) (size : base.buffer.size ≤ t.buffer.size)
    (same : ∀ i < base.status.used, t.buffer.data.cells[i]? = base.buffer.data.cells[i]?) :
    Shows multiline t text := by
  have inside : t.status.used ≤ t.buffer.size := by
    rw [status]
    exact le_trans shows.sound.inside size
  refine ⟨⟨⟨framed.cells, framed.size, by rw [status]; exact shows.sound.used⟩, inside⟩,
    framed.fmt, framed.mode, framed.outer, by rw [status]; exact shows.flags, ?_⟩
  rw [← shows.text, Serializer.text, Serializer.text, status]
  apply ext_getElem?
  intro i
  by_cases below : i < base.status.used
  · rw [getElem?_take_of_lt below, getElem?_take_of_lt below, same i below]
  · rw [getElem?_take_eq_none (by omega), getElem?_take_eq_none (by omega)]

lemma rollback_eq (since : Since multiline low base s) (some : 0 < base.status.used) :
    serializerRollbackSnapshot s =
      let r := { s with status := base.status, hasSnapshot := false }
      let last := base.status.used - 1
      if base.status.flags.array then if multiline then r else r.storeAll last [0x5D]
      else (if multiline then r else r.storeAll 0 [0x20]).storeAll last [0x7D] := by
  have last : sub32 base.status.used 1 = base.status.used - 1 := sub32_of_le some
  have mode := since.framed.mode
  unfold serializerRollbackSnapshot
  simp only [since.hasSnapshot, since.snapshot, since.framed.fmt, mode, since.framed.outer, last,
    if_true]
  cases multiline <;> simp [Serializer.storeAll]

lemma rollback_shows (shows : Shows multiline base text) (sealed : text.Sealed multiline)
    (since : Since multiline (untouched base) base s) :
    Shows multiline (serializerRollbackSnapshot s) text := by
  obtain ⟨b, member, -⟩ := sealed.solid
  have some : 0 < base.status.used := by
    rw [← shows.length]
    exact length_pos_of_mem member
  have inside : base.status.used - 1 < s.buffer.data.cells.length := by
    have within := shows.sound.inside
    have size := since.size
    rw [since.framed.cells]
    omega
  have last := shows.last some
  have first := shows.text_getElem? some
  have kept := since.kept
  have reset : Framed multiline { s with status := base.status, hasSnapshot := false } :=
    ⟨since.framed.cells, since.framed.size, since.framed.fmt, since.framed.mode, since.framed.outer⟩
  have stored : ∀ {r : Serializer} {index : Nat} (byte : UInt8), Framed multiline r →
      Framed multiline (r.storeAll index [byte]) :=
    fun byte framed => framed.footprint (footprint_storeAll _ [byte] (Nat.zero_le _))
  rw [rollback_eq since some]
  unfold untouched at kept
  rw [shows.mode] at kept
  cases array : base.status.flags.array with
  | true =>
    have array' : text.flags.array = true := by rw [← shows.flags]; exact array
    rw [array] at kept
    cases multiline with
    | true =>
      refine shows.again reset rfl since.size fun i below => ?_
      exact (kept i below).resolve_right fun bracket => Bool.noConfusion bracket.2.1
    | false =>
      refine shows.again (stored _ reset) rfl since.size fun i below => ?_
      apply (storeByte_getElem? inside).trans
      rw [sealed.last (fun single => by cases single), array'] at last
      rw [sealed.first rfl, array'] at first
      split
      · next final =>
        rw [final, last]
        rfl
      · rcases kept i (by simp only [Bool.false_and, Bool.false_eq_true, if_false]; omega) with
          same | ⟨rfl, -, bracket⟩
        · exact same
        · rw [bracket, first]
          rfl
  | false =>
    have array' : text.flags.array = false := by rw [← shows.flags]; exact array
    rw [array, Bool.and_false] at kept
    rw [sealed.last (fun _ => array'), array'] at last
    cases multiline with
    | true =>
      refine shows.again (stored _ reset) rfl since.size fun i below => ?_
      apply (storeByte_getElem? inside).trans
      split
      · next final =>
        rw [final, last]
        rfl
      · refine (kept i ?_).resolve_right fun bracket => Bool.noConfusion bracket.2.1
        simp only [Bool.false_eq_true, if_false]
        omega
    | false =>
      refine shows.again (stored _ (stored _ reset)) rfl since.size fun i below => ?_
      rw [sealed.first rfl, array'] at first
      have inside' : base.status.used - 1 < (s.buffer.data.storeAll 0 [0x20]).cells.length := by
        rw [storeAll_length]
        exact inside
      apply (storeByte_getElem? inside').trans
      split
      · next final =>
        rw [final, last]
        rfl
      · have filled : 0 < s.buffer.data.cells.length := by omega
        apply (storeByte_getElem? filled).trans
        split
        · next start =>
          rw [start, first]
          rfl
        · next start =>
          refine (kept i ?_).resolve_right fun bracket => start bracket.1
          simp only [Bool.false_eq_true, if_false]
          omega

end
end Ndpi.Refinement
