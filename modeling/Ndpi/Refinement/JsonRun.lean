import Ndpi.Refinement.JsonWrite

/-!
# Runs of JSON operations

A run of operations that return 0 takes the text through the steps of their
forms. As long as less than half of the address space is free these do not
depend on the buffer at all; and two runs over buffers of one initial size agree
even where they do.
-/
namespace Ndpi.Refinement
open Lib Source.Serialization List

/-- The text after a sequence of forms, where the size of the buffer plays no
part. -/
def JsonText.steps (multiline : Bool) (t : JsonText) (forms : List JsonForm) : JsonText :=
  forms.foldl (fun t form => t.step multiline 0 form) t

section
variable {multiline : Bool} {s r : Serializer} {t : JsonText}

lemma JsonText.Narrow.mono {t' : JsonText} {size : Nat} (narrow : t.Narrow multiline size)
    (grown : t.committed multiline ≤ t'.committed multiline) : t'.Narrow multiline size := by
  unfold JsonText.Narrow at narrow ⊢
  omega

/-- The committed text ends at most three characters before the text does. -/
lemma Shows.committed (shows : Shows multiline s t) (covered : t.Covered multiline) :
    s.status.used ≤ t.committed multiline + 3 := by
  have few := closers_le multiline t.flags
  have length := shows.length
  unfold JsonText.Covered at covered
  unfold JsonText.committed
  omega

lemma Resized.narrow (resized : Resized s r) (shows : Shows multiline s t)
    (covered : t.Covered multiline) (narrow : t.Narrow multiline s.buffer.size) :
    t.Narrow multiline r.buffer.size := by
  have committed := shows.committed covered
  unfold JsonText.Narrow at narrow ⊢
  rcases resized with same | ⟨-, bound⟩
  · rw [same]
    exact narrow
  · omega

end

lemma runCalls_lost (shapes : ∀ call ∈ calls, ∃ form, Op.jsonForm call.op = some form)
    (lost : Lost s) (run : runCalls calls s = some u) : Lost u := by
  induction calls generalizing s with
  | nil =>
    cases run
    exact lost
  | cons call rest ih =>
    obtain ⟨success, clean, run⟩ := runCalls_cons run
    obtain ⟨form, shape⟩ := shapes call (by simp)
    exact ih (fun other member => shapes other (by simp [member]))
      (apply_lost call.heap call.op shape lost success clean) run

variable {s : Serializer}

lemma Lost.not_fits (lost : Lost s) : ¬s.status.used ≤ s.buffer.size := by
  have gone := lost.gone
  omega

/-- The forms of a sequence of calls. -/
def Forms (calls : List Call) (forms : List JsonForm) : Prop :=
  List.Forall₂ (fun call form => Op.jsonForm call.op = some form) calls forms

variable {forms : List JsonForm} {heap : Heap} {calls : List Call}

lemma Forms.shapes (forms' : Forms calls forms) :
    ∀ call ∈ calls, ∃ form, Op.jsonForm call.op = some form := by
  induction forms' with
  | nil => simp
  | @cons call form calls forms shape rest ih => exact forall_mem_cons.mpr ⟨⟨form, shape⟩, ih⟩

lemma Forms.endOfRecord (shapes : Forms calls forms) (ends : JsonForm.endOfRecord ∈ forms) :
    Op.endOfRecord ∈ calls.map Call.op := by
  induction shapes with
  | nil => cases ends
  | @cons call form calls forms shape rest ih =>
    rcases mem_cons.mp ends with rfl | later
    · rw [map_cons, jsonForm_ends.2 shape]
      exact .head _
    · exact .tail _ (ih later)

variable {multiline : Bool} {t : JsonText}

/-- A run goes through the steps of the text. Only the end of a record
in an array, which writes nothing, can leave the text outside its buffer and
still return 0. -/
lemma runCalls_shows (shapes : Forms calls forms) {s u : Serializer} (shows : Shows multiline s t)
    (covered : t.Covered multiline) (narrow : t.Narrow multiline s.buffer.size)
    (run : runCalls calls s = some u)
    (fits : multiline = false → JsonForm.endOfRecord ∈ forms → u.status.used ≤ u.buffer.size) :
    Shows multiline u (t.steps multiline forms) ∧
      (t.steps multiline forms).Covered multiline := by
  induction shapes generalizing s t with
  | nil =>
    cases run
    exact ⟨shows, covered⟩
  | @cons call form calls forms shape rest ih =>
    obtain ⟨success, clean, run⟩ := runCalls_cons run
    rcases apply_shows call.heap call.op shape shows covered success clean with
      ⟨shown, resized⟩ | ⟨lost, rfl, mode⟩
    · have narrow' := resized.narrow shows covered narrow
      rw [step_narrow narrow'] at shown
      obtain ⟨covered', grown⟩ := step_committed 0 covered form
      exact ih shown covered' (narrow'.mono grown) run fun mode later => fits mode (.tail _ later)
    · exact absurd (fits mode (.head _)) (runCalls_lost (Forms.shapes rest) lost run).not_fits

/-- Buffers of one size, or with little room: what is written does not depend on
which of the two it is. -/
def Alike (multiline : Bool) (t : JsonText) (s r : Serializer) : Prop :=
  s.buffer.size = r.buffer.size ∨
    t.Narrow multiline s.buffer.size ∧ t.Narrow multiline r.buffer.size

lemma Alike.resized {s : Serializer}
    (alike : Alike multiline t s r) (shows : Shows multiline s t) (shows' : Shows multiline r t)
    (covered : t.Covered multiline) (resized : Resized s s') (resized' : Resized r r') :
    Alike multiline t s' r' := by
  have same : s.status.used = r.status.used := shows.length.symm.trans shows'.length
  have committed := shows.committed covered
  rcases alike with equal | ⟨narrow, narrow'⟩
  · unfold Alike JsonText.Narrow
    rcases resized with kept | ⟨before, after⟩ <;> rcases resized' with kept' | ⟨before', after'⟩
    · exact .inl (kept.trans (equal.trans kept'.symm))
    · exact .inr ⟨by omega, by omega⟩
    · exact .inr ⟨by omega, by omega⟩
    · exact .inr ⟨by omega, by omega⟩
  · exact .inr ⟨resized.narrow shows covered narrow, resized'.narrow shows' covered narrow'⟩

lemma Alike.step {s : Serializer} (alike : Alike multiline t s r) (form : JsonForm) :
    t.step multiline s.buffer.size form = t.step multiline r.buffer.size form := by
  rcases alike with equal | ⟨narrow, narrow'⟩
  · rw [equal]
  · rw [step_narrow narrow, step_narrow narrow']

/-- The text is not all blanks, which `ndpi_serializer_get_buffer` skips. -/
def JsonText.Solid (t : JsonText) : Prop := ∃ b ∈ t.text, isBlank b = false

lemma step_solid (solid : t.Solid) (size : Nat) (form : JsonForm) :
    (t.step multiline size form).Solid := by
  have closed : ∀ q : JsonText, (q.finished multiline).Solid := by
    intro q
    refine ⟨0x7D, ?_, rfl⟩
    simp [JsonText.finished, closing]
  obtain ⟨b, member, solid⟩ := solid
  cases form with
  | item key value => exact closed _
  | startOfList name => exact closed _
  | startOfBlock name => exact closed _
  | endOfBlock => exact closed _
  | endOfList => exact ⟨b, member, solid⟩
  | endOfRecord =>
    simp only [JsonText.step]
    split
    · exact ⟨b, mem_append_left _ member, solid⟩
    · split
      · exact ⟨b, member, solid⟩
      · exact ⟨0x5D, mem_append_right _ (mem_singleton_self _), rfl⟩

/-- Two runs of the same forms write the same text. -/
lemma runCalls_alike {calls calls' : List Call} (shapes : Forms calls forms)
    (shapes' : Forms calls' forms) {s u v : Serializer} (shows : Shows multiline s t)
    (shows' : Shows multiline r t) (covered : t.Covered multiline) (solid : t.Solid)
    (alike : Alike multiline t s r) (run : runCalls calls s = some u)
    (run' : runCalls calls' r = some v) (fits : multiline = false → JsonForm.endOfRecord ∈ forms →
      u.status.used ≤ u.buffer.size ∧ v.status.used ≤ v.buffer.size) :
    ∃ last, Shows multiline u last ∧ Shows multiline v last ∧ last.Solid := by
  induction shapes generalizing calls' s r t with
  | nil =>
    cases shapes'
    cases run
    cases run'
    exact ⟨t, shows, shows', solid⟩
  | @cons call form calls forms shape rest ih =>
    cases shapes' with
    | @cons call' _ calls' _ shape' rest' =>
      obtain ⟨success, clean, run⟩ := runCalls_cons run
      obtain ⟨success', clean', run'⟩ := runCalls_cons run'
      rcases apply_shows call.heap call.op shape shows covered success clean with
        ⟨shown, resized⟩ | ⟨lost, rfl, mode⟩
      · rcases apply_shows call'.heap call'.op shape' shows' covered success' clean' with
          ⟨shown', resized'⟩ | ⟨lost, rfl, mode⟩
        · have alike' := alike.resized shows shows' covered resized resized'
          obtain ⟨covered', grown⟩ := step_committed (call.op.apply call.heap s).ser.buffer.size
            covered form
          rw [← alike'.step form] at shown'
          have still : Alike multiline (t.step multiline
              (call.op.apply call.heap s).ser.buffer.size form)
              (call.op.apply call.heap s).ser (call'.op.apply call'.heap r).ser := by
            rcases alike' with equal | ⟨narrow, narrow'⟩
            · exact .inl equal
            · exact .inr ⟨narrow.mono grown, narrow'.mono grown⟩
          exact ih rest' shown shown' covered' (step_solid solid _ form) still run run'
            fun mode later => fits mode (.tail _ later)
        · exact absurd (fits mode (.head _)).2
            (runCalls_lost (Forms.shapes rest') lost run').not_fits
      · exact absurd (fits mode (.head _)).1
          (runCalls_lost (Forms.shapes rest) lost run).not_fits

/-- The format argument of a JSON serializer. -/
def jsonFormat (multiline : Bool) : SerializationFormat :=
  if multiline then .multilineJson else .json

/-- Before the first operation: a blank for the bracket of an array, and an empty
object. -/
def freshText (multiline : Bool) : Bytes :=
  (if multiline then [] else [0x20]) ++ [0x7B, 0x7D]

/-- A JSON serializer over zeroed memory, before it is reset. -/
def blankSerializer (multiline : Bool) (size : Nat) : Serializer :=
  ⟨noStatus, ⟨size, size, ⟨List.replicate size 0, []⟩⟩, noBuffer, .json, 0x2C, false, multiline,
    false, noStatus⟩

variable {n : UInt32}

/-- A fresh serializer does not depend on the allocator that granted its buffer. -/
lemma init_eq (init : initSerializerLl heap (jsonFormat multiline) n = some s) :
    3 ≤ n.toNat ∧ s = resetSerializer (blankSerializer multiline n.toNat) := by
  unfold initSerializerLl at init
  split at init
  · cases init
  · next large =>
    unfold initSerializerBuffer at init
    by_cases granted : heap.grants n.toNat = true
    · simp only [granted, if_true] at init
      cases multiline with
      | false =>
        cases init
        exact ⟨Nat.le_of_not_lt large, rfl⟩
      | true =>
        cases init
        exact ⟨Nat.le_of_not_lt large, rfl⟩
    · simp only [granted] at init
      cases init

/-- A buffer of three bytes has no room for the brace after the blank. -/
def freshCells (multiline : Bool) (size : Nat) : Bytes :=
  if multiline then 0x7B :: 0x7D :: List.replicate (size - 2) 0
  else if size = 3 then [0x20, 0x7B, 0]
  else 0x20 :: 0x7B :: 0x7D :: List.replicate (size - 3) 0

lemma reset_blank (multiline : Bool) (large : 3 ≤ size) :
    resetSerializer (blankSerializer multiline size) = { blankSerializer multiline size with
      status.used := if multiline then 2 else 3
      buffer.data.cells := freshCells multiline size } := by
  obtain ⟨rest, rfl⟩ : ∃ rest, size = rest + 3 := ⟨size - 3, by omega⟩
  have cells : List.replicate (rest + 3) (0 : UInt8) = 0 :: 0 :: 0 :: List.replicate rest 0 := rfl
  cases multiline with
  | true =>
    simp [resetSerializer, blankSerializer, cells, snprintfAt, Serializer.buffDiff, sub32,
      Memory.storeAll, Memory.store, Serializer.advance, wrap32, noStatus, freshCells,
      replicate_succ]
  | false =>
    cases rest with
    | zero => rfl
    | succ rest =>
      simp [resetSerializer, blankSerializer, cells, snprintfAt, Serializer.buffDiff, sub32,
        Memory.storeAll, Memory.store, Serializer.advance, wrap32, noStatus, freshCells,
        Serializer.put, Serializer.storeAll, replicate_succ]

section
variable (init : initSerializerLl heap (jsonFormat multiline) n = some s)
include init

/-- A fresh JSON serializer and its text. -/
lemma init_shows :
    Shows multiline s ⟨{}, s.text⟩ ∧ s.buffer.size = n.toNat ∧
      s.status.used = (if multiline then 2 else 3) ∧ 0x7B ∈ s.text ∧
      ((if multiline then 3 else 4) ≤ n.toNat → s.text = freshText multiline) := by
  obtain ⟨large, rfl⟩ := init_eq init
  rw [reset_blank multiline large]
  have bound := n.toNat_lt
  generalize n.toNat = size at large bound
  have length : (freshCells multiline size).length = size := by
    unfold freshCells
    split
    · simp only [length_cons, length_replicate]
      omega
    · split
      · next three => exact three.symm
      · simp only [length_cons, length_replicate]
        omega
  refine ⟨⟨⟨⟨length, bound, ?_⟩, ?_⟩, rfl, rfl, rfl, rfl, rfl⟩, rfl, rfl, ?_, ?_⟩
  · dsimp only
    split <;> omega
  · dsimp only [blankSerializer]
    split <;> omega
  · unfold Serializer.text freshCells
    cases multiline with
    | true => simp
    | false =>
      simp only [Bool.false_eq_true, if_false]
      split <;> simp
  · intro enough
    unfold Serializer.text freshCells
    cases multiline with
    | true => rfl
    | false =>
      have four : size ≠ 3 := by
        simp only [Bool.false_eq_true, if_false] at enough
        omega
      simp [four, freshText]

lemma init_covered :
    JsonText.Covered multiline ⟨{}, s.text⟩ := by
  obtain ⟨shows, -, used, -, -⟩ := init_shows init
  have length : s.text.length = s.status.used := shows.length
  unfold JsonText.Covered
  rw [length, used]
  cases multiline with
  | true => exact (by decide : closers true {} ≤ 2)
  | false => exact (by decide : closers false {} ≤ 3)

end

/-- A size that holds the empty object and is not so large that strings come out
empty. -/
def UsualSize (multiline : Bool) (n : UInt32) : Prop :=
  (if multiline then 3 else 4) ≤ n.toNat ∧ n.toNat ≤ 2147483648

instance (multiline : Bool) (n : UInt32) : Decidable (UsualSize multiline n) :=
  inferInstanceAs (Decidable (_ ∧ _))

lemma init_usual (usual : UsualSize multiline n)
    (init : initSerializerLl heap (jsonFormat multiline) n = some s) :
    s.text = freshText multiline ∧ JsonText.Narrow multiline s.buffer.size ⟨{}, s.text⟩ := by
  obtain ⟨-, size, -, -, text⟩ := init_shows init
  obtain ⟨large, small⟩ := usual
  have exact := text large
  refine ⟨exact, ?_⟩
  rw [size, exact]
  unfold JsonText.Narrow JsonText.committed
  cases multiline with
  | true =>
    have one : (freshText true).length - closers true {} = 1 := by decide
    dsimp only
    omega
  | false =>
    have two : (freshText false).length - closers false {} = 2 := by decide
    dsimp only
    omega

lemma takeWhile_blank (rest : Bytes) (solid : ∃ b ∈ text, isBlank b = false) :
    (text ++ rest).takeWhile isBlank = text.takeWhile isBlank := by
  induction text with
  | nil => simp at solid
  | cons c text ih =>
    by_cases blank : isBlank c = true
    · obtain ⟨b, member, solid⟩ := solid
      have later : ∃ b ∈ text, isBlank b = false := by
        rcases mem_cons.mp member with rfl | inside
        · rw [blank] at solid
          cases solid
        · exact ⟨b, inside, solid⟩
      simp [blank, ih later]
    · rw [cons_append, takeWhile_cons_of_neg blank, takeWhile_cons_of_neg blank]

/-- `ndpi_serializer_get_buffer` returns the text without its leading blanks. -/
lemma getBuffer_json (shows : Shows multiline s t) (solid : t.Solid) :
    serializerGetBuffer s = t.text.dropWhile isBlank := by
  obtain ⟨data, stored, text⟩ : ∃ data, (if s.status.used < s.buffer.size then
      s.buffer.data.store s.status.used 0 else s.buffer.data) = data ∧
      data.cells.take s.status.used = t.text := by
    refine ⟨_, rfl, ?_⟩
    rw [← shows.text]
    split
    · exact Memory.store_take _ _ (le_refl _)
    · rfl
  have whole : data.cells = t.text ++ data.cells.drop s.status.used := by
    rw [← text, take_append_drop]
  have skipped : data.cells.takeWhile isBlank = t.text.takeWhile isBlank := by
    rw [whole, takeWhile_blank _ solid]
  have short : (t.text.takeWhile isBlank).length ≤ s.status.used := by
    rw [← shows.length]
    exact (List.takeWhile_prefix isBlank).length_le
  unfold serializerGetBuffer
  simp only [stored, shows.fmt, if_true, skipped, sub32_of_le short]
  rw [← drop_take, text]
  nth_rewrite 2 [← takeWhile_append_dropWhile (p := isBlank) (l := t.text)]
  exact drop_left

end Ndpi.Refinement
