import Ndpi.Guarantees.TlvRoundTrip
import Ndpi.Refinement.JsonDocument

/-!
# What a JSON buffer says

One record is an object with the members of its operations. Several records are
an array of such objects exactly if no record after the first is empty or has a
block in it; and on a multiline serializer they are one line each exactly if
there is a single record without a list.
-/
namespace Ndpi.Guarantees
open Lib Source.Serialization Refinement List Option Json

/-- A record: well-nested operations and the members they stand for. -/
structure Record where
  ops : List Op
  members : List (Bytes × Json)
  nested : Nested ops members

def Record.object (record : Record) : Json := .obj record.members

/-- The object of the first record, still without its closing brace. -/
lemma first_record {multiline : Bool} (record : Record) :
    ∃ body flags, Inside false flags ∧ flags.sob = false ∧
      JsonText.steps multiline (opened multiline {} ((if multiline then [] else [0x20]) ++ [0x7B]))
        (formsOf record.ops) =
        opened multiline flags ((if multiline then [] else [0x20]) ++ [0x7B] ++ body) ∧
      (Intact multiline false record.ops →
        Json.Reads (0x7B :: body ++ [0x7D]) record.object) ∧
      Json.Weighs body (defect multiline false record.ops) ∧ 0x0A ∉ body := by
  rcases @nested_documents multiline false _ _ record.nested with
    ⟨none, empty⟩ | ⟨-, body, adds, text⟩
  · refine ⟨[], {}, ⟨rfl, rfl, rfl⟩, rfl, ?_, ?_, ?_, by simp⟩
    · rw [none]
      simp [formsOf, JsonText.steps]
    · intro _
      rw [Record.object, empty]
      exact reads_object_nil
    · rw [none]
      exact weighs_neutral (by simp)
  · obtain ⟨flags, following, result⟩ := adds {} _ ⟨rfl, rfl, rfl⟩
    refine ⟨body, flags, following.toInside, following.sob, ?_, ?_, text.weighs, text.line⟩
    · rw [result]
      simp [opening]
    · exact fun whole => reads_object (text.reads whole) text.first

lemma intact_single : Intact false false ops :=
  fun _ _ => ⟨fun no => Bool.noConfusion no, fun _ no => Bool.noConfusion no⟩

lemma defect_single : defect false false ops = 0 := by
  have none : opDefect false false = fun _ => 0 := by
    funext op
    simp [opDefect]
  simp [defect, none]

lemma fresh_opened (usual : UsualSize multiline n)
    (init : initSerializerLl heap (jsonFormat multiline) n = some s) :
    (⟨{}, s.text⟩ : JsonText) =
      opened multiline {} ((if multiline then [] else [0x20]) ++ [0x7B]) := by
  rw [(init_usual usual init).1]
  cases multiline <;> rfl

/-- A whole run, as the steps of its operations from the empty object. -/
lemma run_shows {heap : Heap} {multiline : Bool} {n : UInt32} {fresh s : Serializer}
    {calls : List Call} (usual : UsualSize multiline n)
    (init : initSerializerLl heap (jsonFormat multiline) n = some fresh)
    (run : runCalls calls fresh = some s)
    (shapes : ∀ op ∈ calls.map Call.op, ∃ form, Op.jsonForm op = some form)
    (fits : multiline = false → Op.endOfRecord ∈ calls.map Call.op →
      s.status.used ≤ s.buffer.size) :
    Shows multiline s (JsonText.steps multiline
      (opened multiline {} ((if multiline then [] else [0x20]) ++ [0x7B]))
      (formsOf (calls.map Call.op))) := by
  have forms := forms_formsOf shapes
  rw [← fresh_opened usual init]
  exact (runCalls_shows forms (init_shows init).1 (init_covered init) (init_usual usual init).2 run
    fun mode ends => fits mode (forms.endOfRecord ends)).1

/-- The buffer of a single record parses as the object of its operations. -/
theorem json_object_reads (heap : Heap) (n : UInt32) (fresh s : Serializer) (calls : List Call)
    (record : Record) (usual : UsualSize false n)
    (init : initSerializerLl heap .json n = some fresh)
    (ops : calls.map Call.op = record.ops) (run : runCalls calls fresh = some s) :
    Json.read (serializerGetBuffer s) = some (.obj record.members) := by
  have forms := nested_forms record.nested
  rw [← ops] at forms
  have shows := @run_shows heap false n fresh s calls usual init run
    (fun op member => (forms op member).2) fun _ ends => absurd rfl (forms _ ends).1
  obtain ⟨body, flags, inside, -, result, reads, -, -⟩ := @first_record false record
  rw [ops, result] at shows
  have text : (opened false flags ([0x20, 0x7B] ++ body)).text =
      0x20 :: (0x7B :: body ++ [0x7D]) := by
    simp [opened, closing_inside inside]
  rw [getBuffer_json shows ⟨0x7B, by simp [opened], rfl⟩]
  show Json.read ((opened false flags ([0x20, 0x7B] ++ body)).text.dropWhile isBlank) = _
  rw [text]
  exact read_of_reads (reads intact_single)

def jsonStart (fmt : SerializationFormat) : Serializer :=
  (initSerializerLl openHeap fmt 64).getD sampleFresh

def callsOf (ops : List Op) : List Call := ops.map (⟨openHeap, ·⟩)

/-- A string, a block with a list in it, and a negative number. -/
def sampleRecord : Record where
  ops := [.item (.uint32 1) (.binary (.ofString [34, 10])), .startOfBlock (.ofString [98]),
    .startOfList (.ofString [108]), .item (.uint32 0) (.uint32 2), .item (.uint32 0) (.uint32 3),
    .endOfList, .endOfBlock, .item (.binary (.ofString [107])) (.int32 (-5))]
  members := [([49], .str [34, 10]), ([98], .obj [([108], .arr [.num 2 0, .num 3 0])]),
    ([107], .num (-5) 0)]
  nested := .scalar rfl (@Nested.block _ _ _ [_] _ _ rfl
    (@Nested.list _ _ [_, _] [] _ _ rfl rfl .nil) (.scalar rfl .nil))

theorem json_object_reads_sample :
    ∃ s, runCalls (callsOf sampleRecord.ops) (jsonStart .json) = some s ∧
      Json.read (serializerGetBuffer s) = some (.obj sampleRecord.members) := by
  have returned : (runCalls (callsOf sampleRecord.ops) (jsonStart .json)).isSome := by
    decide +kernel
  obtain ⟨s, run⟩ := isSome_iff_exists.mp returned
  exact ⟨s, run, json_object_reads openHeap 64 (jsonStart .json) s (callsOf sampleRecord.ops)
    sampleRecord (by decide) (by decide +kernel) rfl run⟩

/-- The key `007` names the member `7`. -/
theorem numeric_key_renamed :
    ∃ s, runCalls (callsOf [.item (.binary (.ofString [48, 48, 55])) (.uint32 1)])
        (jsonStart .json) = some s ∧
      Json.read (serializerGetBuffer s) = some (.obj [([55], .num 1 0)]) ∧
      Json.read (serializerGetBuffer s) ≠ some (.obj [(kept [48, 48, 55], .num 1 0)]) := by
  have text : (runCalls (callsOf [.item (.binary (.ofString [48, 48, 55])) (.uint32 1)])
      (jsonStart .json)).map serializerGetBuffer = some [123, 34, 55, 34, 58, 49, 125] := by
    decide +kernel
  obtain ⟨s, run, buffer⟩ := map_eq_some_iff.mp text
  have read : Json.read (serializerGetBuffer s) = some (.obj [([55], .num 1 0)]) := by
    rw [buffer]
    rfl
  refine ⟨s, run, read, ?_⟩
  rw [read]
  intro same
  have names : ([55] : Bytes) = kept [48, 48, 55] := by simpa using same
  exact absurd names (by decide)

/-- The operations of several records, with the end of a record between two. -/
def recordOps (first : Record) (later : List Record) : List Op :=
  first.ops ++ later.flatMap fun record => .endOfRecord :: record.ops

section

/-- What a record after the first adds to the array. -/
def RecordText (record : Record) (text : Bytes) : Prop :=
  record.ops = [] ∧ text = [] ∨
    record.ops ≠ [] ∧ ∃ body, text = 0x2C :: (0x7B :: body ++ [0x7D]) ∧
      MembersText (Intact false true record.ops) (defect false true record.ops) body record.members

/-- After a record of the array. -/
structure Closed (text : Bytes) (t : JsonText) : Prop where
  text : t.text = text ++ [0x5D]
  array : t.flags.array = true
  list : t.flags.list = false
  sob : t.flags.sob = false

lemma closed_endOfRecord (closed : Closed text t) :
    ∃ flags, Ended flags ∧ t.step false 0 .endOfRecord = ⟨flags, text ++ [0x5D]⟩ := by
  refine ⟨{ t.flags with array := true, eor := true, comma := false, notEmpty := false },
    ⟨rfl, rfl, closed.list, closed.sob, rfl⟩, ?_⟩
  simp [JsonText.step, closed.array, closed.text]

lemma later_record (ended : Ended flags) :
    ∃ piece, RecordText record piece ∧ Closed (text ++ piece)
      (JsonText.steps false ⟨flags, text ++ [0x5D]⟩ (formsOf record.ops)) := by
  rcases @nested_documents false true _ _ record.nested with ⟨none, -⟩ | ⟨some, body, adds, described⟩
  · refine ⟨[], .inl ⟨none, rfl⟩, ?_⟩
    rw [none, append_nil]
    exact ⟨rfl, ended.array, ended.list, ended.sob⟩
  · obtain ⟨flags', following, result⟩ := @steps_ended false _ _ ended _ record.nested some _ adds text
    refine ⟨_, .inr ⟨some, body, rfl, described⟩, ?_⟩
    simp only [Bool.false_eq_true, if_false] at result
    rw [result]
    refine ⟨?_, following.array, following.list, following.sob⟩
    simp [opened, closing_inside following.toInside]

lemma later_records (later : List Record) (closed : Closed text t) :
    ∃ pieces, List.Forall₂ RecordText later pieces ∧ Closed (text ++ pieces.flatten)
      (t.steps false (formsOf (later.flatMap fun record => .endOfRecord :: record.ops))) := by
  induction later generalizing text t with
  | nil => exact ⟨[], .nil, by simpa [formsOf, JsonText.steps] using closed⟩
  | cons record rest ih =>
    obtain ⟨flags, ended, between⟩ := closed_endOfRecord closed
    obtain ⟨piece, described, closed'⟩ := later_record ended
    obtain ⟨pieces, others, last⟩ := ih closed'
    refine ⟨piece :: pieces, .cons described others, ?_⟩
    have separator : Op.jsonForm .endOfRecord = some .endOfRecord := rfl
    rw [flatMap_cons, cons_append, formsOf_cons separator, steps_cons, between,
      formsOf_append, steps_append, flatten_cons, ← append_assoc]
    exact last

/-- The text of two or more records. -/
lemma array_text {first second : Record} {rest : List Record} :
    ∃ body pieces, Json.Reads (0x7B :: body ++ [0x7D]) first.object ∧ Json.Weighs body 0 ∧
      List.Forall₂ RecordText (second :: rest) pieces ∧
      (JsonText.steps false (opened false {} [0x20, 0x7B])
        (formsOf (recordOps first (second :: rest)))).text =
        0x5B :: ((0x7B :: body ++ [0x7D]) ++ pieces.flatten) ++ [0x5D] := by
  obtain ⟨body, flags, inside, sob, result, reads, weighs, -⟩ := @first_record false first
  have bracketed : (opened false flags ([0x20, 0x7B] ++ body)).step false 0 .endOfRecord =
      ⟨{ flags with array := true, eor := true, comma := false, notEmpty := false },
        (0x5B :: (0x7B :: body ++ [0x7D])) ++ [0x5D]⟩ := by
    simp [JsonText.step, opened, inside.array, closing_inside inside]
  have ended : Ended { flags with array := true, eor := true, comma := false, notEmpty := false } :=
    ⟨rfl, rfl, inside.list, sob, rfl⟩
  obtain ⟨piece, described, closed⟩ := later_record ended
  obtain ⟨pieces, others, last⟩ := later_records rest closed
  refine ⟨body, piece :: pieces, reads intact_single, defect_single ▸ weighs,
    .cons described others, ?_⟩
  have start : JsonText.steps false (opened false {} [0x20, 0x7B]) (formsOf first.ops) =
      opened false flags ([0x20, 0x7B] ++ body) := result
  have separator : Op.jsonForm .endOfRecord = some .endOfRecord := rfl
  have split : recordOps first (second :: rest) = first.ops ++ .endOfRecord ::
      (second.ops ++ rest.flatMap fun record => .endOfRecord :: record.ops) := by
    simp [recordOps]
  rw [split, formsOf_append, steps_append, start, formsOf_cons separator, steps_cons, bracketed,
    formsOf_append, steps_append, last.text]
  simp

/-- The objects of the records that are not empty. -/
def writtenRecords (later : List Record) : List Json :=
  (later.filter fun record => !record.ops.isEmpty).map Record.object

variable {later : List Record} {pieces : List Bytes}

lemma reads_records {text : Bytes} {value : Json} (here : Json.Reads text value)
    (described : List.Forall₂ RecordText later pieces)
    (intact : ∀ record ∈ later, Intact false true record.ops) :
    Json.ReadsElements (text ++ pieces.flatten) (value :: writtenRecords later) := by
  induction described generalizing text value with
  | nil =>
    rw [flatten_nil, append_nil]
    exact reads_element here
  | @cons record piece later pieces first rest ih =>
    have others : ∀ record ∈ later, Intact false true record.ops :=
      fun record member => intact record (.tail _ member)
    rw [flatten_cons]
    rcases first with ⟨none, rfl⟩ | ⟨some, body, rfl, members⟩
    · have skipped : writtenRecords (record :: later) = writtenRecords later := by
        simp [writtenRecords, none]
      rw [skipped]
      exact ih here others
    · have added : writtenRecords (record :: later) = record.object :: writtenRecords later := by
        simp [writtenRecords, some]
      rw [added, cons_append]
      refine reads_elements_cons here (ih ?_ others)
      exact reads_object (members.reads (intact record (.head _))) members.first

lemma weighs_records (described : List.Forall₂ RecordText later pieces) :
    Json.Weighs pieces.flatten (defect false true (later.flatMap Record.ops)) := by
  induction described with
  | nil => exact weighs_neutral (by simp)
  | @cons record piece later pieces first rest ih =>
    rw [flatten_cons, flatMap_cons, defect_append]
    refine weighs_append ?_ ih
    rcases first with ⟨none, rfl⟩ | ⟨-, body, rfl, members⟩
    · rw [none]
      exact weighs_neutral (by simp)
    · have opens : Json.Weighs [0x2C, 0x7B] 0 := weighs_plain (by decide)
      have brace : Json.Weighs [0x7D] 0 := weighs_plain (by decide)
      have whole := weighs_append (weighs_append opens members.weighs) brace
      simpa using whole

/-- A block in a record after the first leaves a bracket too many. -/
lemma read_records_unbalanced {body : Bytes} (weighs : Json.Weighs body 0)
    (described : List.Forall₂ RecordText later pieces)
    (unbalanced : defect false true (later.flatMap Record.ops) ≠ 0) :
    Json.read (0x5B :: ((0x7B :: body ++ [0x7D]) ++ pieces.flatten) ++ [0x5D]) = none := by
  have brace : Json.Weighs [0x7B] 0 := weighs_plain (by decide)
  have brace' : Json.Weighs [0x7D] 0 := weighs_plain (by decide)
  have object := weighs_append (weighs_append brace weighs) brace'
  have whole := weighs_append (weighs_append weighs_open
    (weighs_append object (weighs_records described))) weighs_close
  exact read_of_weighs whole (by omega)

end

lemma writtenRecords_all (all : writtenRecords later = later.map Record.object) :
    ∀ record ∈ later, record.ops ≠ [] := by
  have lengths := congrArg List.length all
  rw [writtenRecords, length_map, length_map, length_filter_eq_length_iff] at lengths
  intro record member
  simpa using lengths record member

/-- Two or more records are read back exactly if every record after the first has
operations and no block among them. -/
theorem json_array_reads_iff (heap : Heap) (n : UInt32) (fresh s : Serializer) (calls : List Call)
    (first second : Record) (rest : List Record) (usual : UsualSize false n)
    (init : initSerializerLl heap .json n = some fresh)
    (ops : calls.map Call.op = recordOps first (second :: rest))
    (run : runCalls calls fresh = some s) (fits : s.status.used ≤ s.buffer.size) :
    Json.read (serializerGetBuffer s) =
        some (.arr ((first :: second :: rest).map Record.object)) ↔
      ∀ record ∈ second :: rest, record.ops ≠ [] ∧ ∀ op ∈ record.ops, blockName op = none := by
  have shapes : ∀ op ∈ calls.map Call.op, ∃ form, Op.jsonForm op = some form := by
    intro op member
    rw [ops, recordOps, mem_append, mem_flatMap] at member
    rcases member with here | ⟨record, -, inside⟩
    · exact (nested_forms first.nested op here).2
    · rcases mem_cons.mp inside with rfl | here
      · exact ⟨_, rfl⟩
      · exact (nested_forms record.nested op here).2
  have shows := @run_shows heap false n fresh s calls usual init run shapes fun _ _ => fits
  obtain ⟨body, pieces, reads, weighs, described, text⟩ := array_text
  rw [ops] at shows
  have solid : JsonText.Solid (JsonText.steps false (opened false {} [0x20, 0x7B])
      (formsOf (recordOps first (second :: rest)))) := ⟨0x5B, by rw [text]; simp, rfl⟩
  have buffer : serializerGetBuffer s =
      0x5B :: ((0x7B :: body ++ [0x7D]) ++ pieces.flatten) ++ [0x5D] := by
    rw [getBuffer_json shows solid]
    exact (congrArg (List.dropWhile isBlank) text).trans rfl
  rw [buffer]
  by_cases intact : ∀ record ∈ second :: rest, Intact false true record.ops
  · have read := read_of_reads (reads_array (reads_records reads described intact)
      ⟨0x7B, _, rfl, rfl, by decide⟩)
    rw [read]
    constructor
    · intro same
      have all : writtenRecords (second :: rest) = (second :: rest).map Record.object := by
        simpa using same
      intro record member
      exact ⟨writtenRecords_all all record member,
        fun op inside => (intact record member op inside).2 rfl rfl⟩
    · intro whole
      have all : (second :: rest).filter (fun record => !record.ops.isEmpty) = second :: rest := by
        rw [filter_eq_self]
        intro record member
        simpa using (whole record member).1
      rw [writtenRecords, all]
      rfl
  · have unbalanced : defect false true ((second :: rest).flatMap Record.ops) ≠ 0 := by
      intro balanced
      have whole := intact_of_defect balanced
      exact intact fun record member op inside =>
        whole op (mem_flatMap.mpr ⟨record, member, inside⟩)
    rw [read_records_unbalanced weighs described unbalanced]
    refine ⟨fun no => (by cases no), fun whole => absurd ?_ intact⟩
    intro record member op inside
    exact ⟨fun no => Bool.noConfusion no, fun _ _ => (whole record member).2 op inside⟩

def plainRecord : Record :=
  ⟨[.item (.uint32 1) (.uint32 2)], [([49], .num 2 0)], .scalar rfl .nil⟩

def blockRecord : Record where
  ops := [.startOfBlock (.ofString [98]), .item (.uint32 1) (.uint32 2), .endOfBlock]
  members := [([98], .obj [([49], .num 2 0)])]
  nested := @Nested.block _ _ [_] [] _ _ rfl (.scalar rfl .nil) .nil

theorem json_array_reads_iff_sample :
    ∃ s, runCalls (callsOf (recordOps blockRecord [plainRecord])) (jsonStart .json) = some s ∧
      Json.read (serializerGetBuffer s) =
        some (.arr [blockRecord.object, plainRecord.object]) := by
  have returned : ((runCalls (callsOf (recordOps blockRecord [plainRecord]))
      (jsonStart .json)).map fun s => decide (s.status.used ≤ s.buffer.size)) = some true := by
    decide +kernel
  obtain ⟨s, run, fits⟩ := map_eq_some_iff.mp returned
  refine ⟨s, run, (json_array_reads_iff openHeap 64 (jsonStart .json) s
    (callsOf (recordOps blockRecord [plainRecord])) blockRecord plainRecord [] (by decide)
    (by decide +kernel) rfl run (of_decide_eq_true fits)).mpr ?_⟩
  intro record member
  obtain rfl : record = plainRecord := by simpa using member
  exact ⟨by simp [plainRecord], by simp [plainRecord, blockName]⟩

/-- A block in the second record closes the array too early:
`[\x7b"1":2\x7d,\x7b"b": \x7b"1":2\x7d]\x7d]`. -/
theorem block_breaks_array :
    ∃ s, runCalls (callsOf (recordOps plainRecord [blockRecord])) (jsonStart .json) = some s ∧
      s.status.used ≤ s.buffer.size ∧ Json.read (serializerGetBuffer s) = none := by
  have text : ((runCalls (callsOf (recordOps plainRecord [blockRecord]))
      (jsonStart .json)).map fun s => (decide (s.status.used ≤ s.buffer.size),
        serializerGetBuffer s)) = some (true, [91, 123, 34, 49, 34, 58, 50, 125, 44, 123, 34, 98, 34,
          58, 32, 123, 34, 49, 34, 58, 50, 125, 93, 125, 93]) := by
    decide +kernel
  obtain ⟨s, run, facts⟩ := map_eq_some_iff.mp text
  simp only [Prod.mk.injEq, decide_eq_true_eq] at facts
  refine ⟨s, run, facts.1, ?_⟩
  rw [facts.2]
  rfl

/-- The lines of a text in which every line is terminated. -/
structure Lines (text : Bytes) (lines : List Bytes) : Prop where
  text : text = lines.flatMap (· ++ [0x0A])
  line : ∀ line ∈ lines, 0x0A ∉ line

lemma append_line_inj {first second rest rest' : Bytes} (plain : 0x0A ∉ first)
    (plain' : 0x0A ∉ second) (same : first ++ 0x0A :: rest = second ++ 0x0A :: rest') :
    first = second ∧ rest = rest' := by
  induction first generalizing second with
  | nil =>
    cases second with
    | nil => exact ⟨rfl, by simpa using same⟩
    | cons b second =>
      simp only [nil_append, cons_append, List.cons.injEq] at same
      exact absurd (same.1 ▸ mem_cons_self) plain'
  | cons b first ih =>
    cases second with
    | nil =>
      simp only [nil_append, cons_append, List.cons.injEq] at same
      exact absurd (same.1 ▸ mem_cons_self) plain
    | cons c second =>
      simp only [cons_append, List.cons.injEq] at same
      simp only [mem_cons, not_or] at plain plain'
      obtain ⟨tail, rest⟩ := ih plain.2 plain'.2 same.2
      exact ⟨by rw [same.1, tail], rest⟩

/-- A text that starts with a line has it as its first line. -/
lemma lines_cons {line rest : Bytes} {lines : List Bytes} (plain : 0x0A ∉ line)
    (split : Lines (line ++ 0x0A :: rest) lines) :
    ∃ others, lines = line :: others ∧ Lines rest others := by
  cases lines with
  | nil => simpa using split.text
  | cons other others =>
    have text := split.text
    rw [flatMap_cons, append_assoc, singleton_append] at text
    obtain ⟨rfl, rest⟩ := append_line_inj plain (split.line other (.head _)) text
    exact ⟨others, rfl, rest, fun line member => split.line line (.tail _ member)⟩

/-- Each later record starts with a line break of its own. -/
lemma later_lines (later : List Record) (ended : Ended flags) (text : Bytes) :
    ∃ more, (JsonText.steps true ⟨flags, text⟩ (formsOf (later.flatMap fun record =>
      record.ops ++ [.endOfRecord]))).text = text ++ more ∧
      (later ≠ [] → ∃ rest, more = 0x0A :: rest) := by
  have separator : formsOf [Op.endOfRecord] = [.endOfRecord] := rfl
  induction later generalizing flags text with
  | nil => exact ⟨[], by simp [formsOf, JsonText.steps], fun no => absurd rfl no⟩
  | cons record rest ih =>
    obtain ⟨flags', ended', added, result⟩ : ∃ flags', Ended flags' ∧ ∃ added,
        JsonText.steps true ⟨flags, text⟩ (formsOf (record.ops ++ [.endOfRecord])) =
          ⟨flags', text ++ 0x0A :: added⟩ := by
      rw [formsOf_append, steps_append, separator, steps_cons]
      rcases @nested_documents true true _ _ record.nested with
        ⟨none, -⟩ | ⟨some, body, adds, -⟩
      · rw [none]
        exact ⟨{ flags with array := true, eor := true, comma := false, notEmpty := false },
          ⟨rfl, rfl, ended.list, ended.sob, rfl⟩, [], rfl⟩
      · obtain ⟨flags', following, result⟩ :=
          @steps_ended true _ _ ended _ record.nested some _ adds text
        simp only [if_true, append_nil] at result
        rw [result]
        refine ⟨{ flags' with array := true, eor := true, comma := false, notEmpty := false },
          ⟨rfl, rfl, following.list, following.sob, rfl⟩, 0x7B :: body ++ [0x7D] ++ [0x0A], ?_⟩
        simp [JsonText.step, JsonText.steps, opened, closing_inside following.toInside]
    obtain ⟨more, last, -⟩ := ih ended' (text ++ 0x0A :: added)
    refine ⟨0x0A :: added ++ more, ?_, fun _ => ⟨added ++ more, rfl⟩⟩
    rw [flatMap_cons, formsOf_append, steps_append, result, last, append_assoc]

lemma lines_text {first : Record} :
    ∃ body more, (JsonText.steps true (opened true {} [0x7B])
        (formsOf ((first :: later).flatMap fun record => record.ops ++ [.endOfRecord]))).text =
        (0x7B :: body ++ [0x7D]) ++ 0x0A :: more ∧
      (Intact true false first.ops → Json.Reads (0x7B :: body ++ [0x7D]) first.object) ∧
      Json.Weighs body (defect true false first.ops) ∧ 0x0A ∉ 0x7B :: body ++ [0x7D] ∧
      (later = [] → more = []) ∧ (later ≠ [] → ∃ rest, more = 0x0A :: rest) := by
  obtain ⟨body, flags, inside, sob, result, reads, weighs, line⟩ := @first_record true first
  have start : JsonText.steps true (opened true {} [0x7B]) (formsOf first.ops) =
      opened true flags ([0x7B] ++ body) := result
  have separator : Op.jsonForm .endOfRecord = some .endOfRecord := rfl
  have split : (first :: later).flatMap (fun record => record.ops ++ [.endOfRecord]) = first.ops ++
      .endOfRecord :: later.flatMap fun record => record.ops ++ [.endOfRecord] := by
    simp
  have terminated : (opened true flags ([0x7B] ++ body)).step true 0 .endOfRecord =
      ⟨{ flags with array := true, eor := true, comma := false, notEmpty := false },
        (0x7B :: body ++ [0x7D]) ++ [0x0A]⟩ := by
    simp [JsonText.step, opened, closing_inside inside]
  have ended : Ended { flags with array := true, eor := true, comma := false, notEmpty := false } :=
    ⟨rfl, rfl, inside.list, sob, rfl⟩
  obtain ⟨more, last, begun⟩ := later_lines later ended ((0x7B :: body ++ [0x7D]) ++ [0x0A])
  rw [split, formsOf_append, steps_append, start, formsOf_cons separator, steps_cons, terminated]
  refine ⟨body, more, by rw [last]; simp, reads, weighs, by simp [line], ?_, begun⟩
  rintro rfl
  simpa [formsOf, JsonText.steps] using last

/-- A list in a record leaves a bracket open. -/
lemma read_object_unbalanced {body : Bytes} {count : Int} (weighs : Json.Weighs body count)
    (unbalanced : count ≠ 0) : Json.read (0x7B :: body ++ [0x7D]) = none := by
  have brace : Json.Weighs [0x7B] 0 := weighs_plain (by decide)
  have brace' : Json.Weighs [0x7D] 0 := weighs_plain (by decide)
  exact read_of_weighs (weighs_append (weighs_append brace weighs) brace') (by omega)

/-- A multiline serializer writes one line per record, each with the object of its
record, exactly if there is one record and no list in it. -/
theorem multiline_json_lines_iff (heap : Heap) (n : UInt32) (fresh s : Serializer)
    (calls : List Call) (records : List Record) (small : n.toNat ≤ 2147483648)
    (init : initSerializerLl heap .multilineJson n = some fresh)
    (ops : calls.map Call.op = records.flatMap fun record => record.ops ++ [.endOfRecord])
    (run : runCalls calls fresh = some s) :
    (∃ lines, Lines (serializerGetBuffer s) lines ∧
        lines.map Json.read = records.map fun record => some (.obj record.members)) ↔
      ∃ record, records = [record] ∧ ∀ op ∈ record.ops, listName op = none := by
  have shapes : ∀ op ∈ calls.map Call.op, ∃ form, Op.jsonForm op = some form := by
    intro op member
    rw [ops, mem_flatMap] at member
    obtain ⟨record, -, inside⟩ := member
    rcases mem_append.mp inside with here | last
    · exact (nested_forms record.nested op here).2
    · obtain rfl : op = .endOfRecord := by simpa using last
      exact ⟨_, rfl⟩
  have usual : UsualSize true n := ⟨(@init_eq _ _ true _ init).1, small⟩
  have shows := @run_shows heap true n fresh s calls usual init run shapes
    fun no => Bool.noConfusion no
  rw [ops] at shows
  cases records with
  | nil =>
    constructor
    · rintro ⟨lines, split, reads⟩
      obtain rfl : lines = [] := by simpa using reads
      have buffer : serializerGetBuffer s = [0x7B, 0x7D] :=
        getBuffer_json shows ⟨0x7B, by simp [formsOf, JsonText.steps, opened], rfl⟩
      rw [buffer] at split
      cases split.text
    · rintro ⟨record, none, -⟩
      cases none
  | cons first later =>
    obtain ⟨body, more, text, reads, weighs, line, single, several⟩ := lines_text
    have buffer : serializerGetBuffer s = (0x7B :: body ++ [0x7D]) ++ 0x0A :: more := by
      rw [getBuffer_json shows ⟨0x7B, by
        show _ ∈ (JsonText.steps true (opened true {} [0x7B]) _).text
        rw [text]
        simp, rfl⟩]
      exact (congrArg (List.dropWhile isBlank) text).trans rfl
    rw [buffer]
    constructor
    · rintro ⟨lines, split, all⟩
      obtain ⟨others, rfl, rest⟩ := lines_cons line split
      simp only [map_cons, List.cons.injEq] at all
      have alone : later = [] := by
        by_contra many
        obtain ⟨tail, rfl⟩ := several many
        obtain ⟨last, rfl, -⟩ := @lines_cons [] tail others (by simp) rest
        cases later with
        | nil => exact many rfl
        | cons second later =>
          have empty : Json.read [] = some (.obj second.members) := (List.cons.inj all.2).1
          cases empty
      refine ⟨first, by rw [alone], ?_⟩
      have balanced : defect true false first.ops = 0 := by
        by_contra unbalanced
        rw [read_object_unbalanced weighs unbalanced] at all
        cases all.1
      exact fun op inside => (intact_of_defect balanced op inside).1 rfl
    · rintro ⟨record, same, plain⟩
      obtain ⟨rfl, rfl⟩ := List.cons.inj same
      rw [single rfl]
      have intact : Intact true false first.ops := fun op inside =>
        ⟨fun _ => plain op inside, fun no => Bool.noConfusion no⟩
      refine ⟨[0x7B :: body ++ [0x7D]], ⟨by simp, by simpa using line⟩, ?_⟩
      rw [map_singleton, read_of_reads (reads intact)]
      rfl

theorem multiline_json_lines_iff_sample :
    ∃ s, runCalls (callsOf (blockRecord.ops ++ [.endOfRecord])) (jsonStart .multilineJson) = some s ∧
      ∃ lines, Lines (serializerGetBuffer s) lines ∧
        lines.map Json.read = [some (.obj blockRecord.members)] := by
  have returned : (runCalls (callsOf (blockRecord.ops ++ [.endOfRecord]))
      (jsonStart .multilineJson)).isSome := by
    decide +kernel
  obtain ⟨s, run⟩ := isSome_iff_exists.mp returned
  refine ⟨s, run, (multiline_json_lines_iff openHeap 64 (jsonStart .multilineJson) s
    (callsOf (blockRecord.ops ++ [.endOfRecord])) [blockRecord] (by decide) (by decide +kernel) rfl
    run).mpr ⟨blockRecord, rfl, ?_⟩⟩
  simp [blockRecord, listName]

/-- Two records are three lines, the second of them empty. -/
theorem second_record_adds_line :
    ∃ s, runCalls (callsOf (plainRecord.ops ++ [.endOfRecord] ++ plainRecord.ops ++ [.endOfRecord]))
        (jsonStart .multilineJson) = some s ∧
      ¬∃ lines, Lines (serializerGetBuffer s) lines ∧
        lines.map Json.read = [some plainRecord.object, some plainRecord.object] := by
  have text : ((runCalls (callsOf (plainRecord.ops ++ [.endOfRecord] ++ plainRecord.ops ++
      [.endOfRecord])) (jsonStart .multilineJson)).map serializerGetBuffer) =
      some ([123, 34, 49, 34, 58, 50, 125] ++ 0x0A ::
        ([] ++ 0x0A :: [123, 34, 49, 34, 58, 50, 125, 0x0A])) := by
    decide +kernel
  obtain ⟨s, run, buffer⟩ := map_eq_some_iff.mp text
  refine ⟨s, run, ?_⟩
  rintro ⟨lines, split, reads⟩
  rw [buffer] at split
  obtain ⟨others, rfl, tail⟩ := lines_cons (by decide) split
  obtain ⟨last, rfl, -⟩ := lines_cons (by decide) tail
  have empty : Json.read [] = some plainRecord.object := (List.cons.inj (List.cons.inj reads).2).1
  cases empty

end Ndpi.Guarantees
