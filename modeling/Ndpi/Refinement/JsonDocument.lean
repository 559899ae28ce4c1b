import Ndpi.Lib.JsonBrackets
import Ndpi.Refinement.JsonRun

/-!
# Well-nested operations and the text they write

A well-nested sequence of operations stands for the members of an object. The
text it adds reads as these members, except in two modes that lose track of the
brackets: once records are separated every block closes the array too, and a
multiline serializer never closes a list.
-/
namespace Ndpi.Refinement
open Lib Source.Serialization List Option Json

/-- The JSON value of an integer or a string. -/
def scalarJson : Scalar → Option Json
  | .uint32 value => some (.num value.toNat 0)
  | .uint64 value => some (.num value.toNat 0)
  | .int32 value => some (.num value.toInt 0)
  | .int64 value => some (.num value.toInt 0)
  | .binary value => some (.str (kept value.bytes))
  | .float _ | .double _ | .boolean _ => none

/-- The name under which a value is written. A string of digits, the empty one
among them, is turned into a number first. -/
def keyName : Key → Bytes
  | .uint32 key => decimal key.toNat
  | .binary key =>
    if isNumber key.bytes then decimal (atoi key.memory).toNat else kept key.bytes

def opMember : Op → Option (Bytes × Json)
  | .item key value => (scalarJson value).map fun json => (keyName key, json)
  | .stringInt32 key value => some (keyName (.binary (.ofString key)), .num value.toInt 0)
  | .stringStringLen key value =>
    some (keyName (.binary (.ofString key)), .str (kept value.bytes))
  | .stringUint32Format key value _ =>
    some (keyName (.binary (.ofString key)), .num value.toNat 0)
  | _ => none

def blockName : Op → Option Bytes
  | .startOfBlock key => some (kept key.bytes)
  | .startOfBlockUint32 key => some (decimal key.toNat)
  | _ => none

def listName : Op → Option Bytes
  | .startOfList key => some (kept key.bytes)
  | _ => none

/-- Operations that write the members of one object: scalars, blocks around such
operations, and lists of scalars. -/
inductive Nested : List Op → List (Bytes × Json) → Prop where
  | nil : Nested [] []
  | scalar {op : Op} {member : Bytes × Json} {rest : List Op} {members : List (Bytes × Json)}
      (here : opMember op = some member) (after : Nested rest members) :
      Nested (op :: rest) (member :: members)
  | block {op : Op} {name : Bytes} {inner rest : List Op} {inside members : List (Bytes × Json)}
      (start : blockName op = some name) (within : Nested inner inside)
      (after : Nested rest members) :
      Nested (op :: (inner ++ .endOfBlock :: rest)) ((name, .obj inside) :: members)
  | list {op : Op} {name : Bytes} {inner rest : List Op} {values : List Json}
      {members : List (Bytes × Json)} (start : listName op = some name)
      (within : inner.map (fun item => (opMember item).map Prod.snd) = values.map some)
      (after : Nested rest members) :
      Nested (op :: (inner ++ .endOfList :: rest)) ((name, .arr values) :: members)

section

/-- The text of a name with its colon. -/
structure NameText (text name : Bytes) : Prop where
  literal : ∃ body, text = 0x22 :: body ++ [0x22, 0x3A] ∧ Json.Literal body name
  line : 0x0A ∉ text

/-- The text of a value. -/
structure ValueText (text : Bytes) (value : Json) : Prop where
  reads : Json.Reads text value
  weighs : Json.Weighs text 0
  line : 0x0A ∉ text
  first : ∃ b rest, text = b :: rest ∧ Json.isSpace b = false ∧ b ≠ 0x5D

variable (src : Bytes)

lemma quoted_zero : quoted 0 src = 0x22 :: escaped src ++ [0x22] := by
  rw [quoted, if_pos (by decide)]

lemma quoted_line : 0x0A ∉ quoted 0 src := by
  have inside := escaped_line src
  rw [quoted_zero]
  simp [inside]

lemma digits_line {digits : Bytes} (all : ∀ b ∈ digits, isDigit b = true) : 0x0A ∉ digits := by
  intro member
  exact absurd (all _ member) (by decide)

lemma nameText_number : NameText (0x22 :: decimal n ++ [0x22, 0x3A]) (decimal n) := by
  refine ⟨⟨_, rfl, literal_digits (decimal_digits n)⟩, ?_⟩
  have inside := digits_line (decimal_digits n)
  simp [inside]

lemma nameText_quoted : NameText (quoted 0 src ++ [0x3A]) (kept src) := by
  refine ⟨⟨escaped src, ?_, literal_escaped src⟩, ?_⟩
  · rw [quoted_zero]
    simp
  · have inside := quoted_line src
    simp [inside]

lemma valueText_string : ValueText (quoted 0 src) (.str (kept src)) := by
  have line := quoted_line src
  rw [quoted_zero] at line ⊢
  exact ⟨reads_string (literal_escaped src), weighs_literal (literal_escaped src), line,
    ⟨0x22, _, rfl, rfl, by decide⟩⟩

lemma valueText_int : ValueText (decimalInt z) (.num z 0) := by
  have bytes : ∀ b ∈ decimalInt z, b = 0x2D ∨ isDigit b = true := by
    intro b member
    unfold decimalInt at member
    split at member
    · rcases mem_cons.mp member with minus | digit
      · exact .inl minus
      · exact .inr (decimal_digits _ b digit)
    · exact .inr (decimal_digits _ b member)
  have each : ∀ b ∈ decimalInt z, Json.Neutral b ∧ b ≠ 0x0A ∧ Json.isSpace b = false := by
    intro b member
    rcases bytes b member with rfl | digit
    · decide
    · refine ⟨digit_neutral b digit, ?_, ?_⟩
      · rintro rfl
        exact absurd digit (by decide)
      · cases space : Json.isSpace b with
        | false => rfl
        | true =>
          simp only [Json.isSpace, Bool.or_eq_true, beq_iff_eq] at space
          rcases space with ((rfl | rfl) | rfl) | rfl <;> exact absurd digit (by decide)
  obtain ⟨b, rest, text, -⟩ := decimalInt_first z
  have first := each b (by simp [text])
  exact ⟨reads_int z, weighs_neutral fun b member => (each b member).1,
    fun member => (each _ member).2.1 rfl, ⟨b, rest, text, first.2.2, first.1.2.2⟩⟩

lemma decimal_decimalInt : decimal n = decimalInt n := by
  rw [decimalInt, if_neg (by omega), Int.natAbs_natCast]

lemma nameText_key (key : Key) : NameText ((Key.jsonKey key).text 0 0) (keyName key) := by
  cases key with
  | uint32 key => exact nameText_number
  | binary key =>
    by_cases number : isNumber key.bytes = true
    · rw [Key.jsonKey, keyName, if_pos number, if_pos number]
      exact nameText_number
    · rw [Key.jsonKey, keyName, if_neg number, if_neg number]
      exact nameText_quoted key.bytes

lemma valueText_scalar (form : scalarJson value = some json) :
    ValueText ((Scalar.jsonValue value).text 0 0) json := by
  cases value with
  | uint32 value | uint64 value =>
    cases form
    rw [Scalar.jsonValue, JsonValue.text, decimal_decimalInt]
    exact valueText_int
  | int32 value | int64 value =>
    cases form
    exact valueText_int
  | binary value =>
    cases form
    exact valueText_string value.bytes
  | _ => cases form

/-- The form of a scalar operation, with the texts of its name and value. -/
lemma opMember_form (form : opMember op = some (name, value)) :
    ∃ key scalar, Op.jsonForm op = some (.item key scalar) ∧ NameText (key.text 0 0) name ∧
      ValueText (scalar.text 0 0) value := by
  have keyed : ∀ (key : Key) (scalar : Scalar) {json : Json}, scalarJson scalar = some json →
      ∃ k v, some (itemForm key scalar) = some (.item k v) ∧
        NameText (k.text 0 0) (keyName key) ∧ ValueText (v.text 0 0) json := by
    intro key scalar json meaning
    refine ⟨Key.jsonKey key, Scalar.jsonValue scalar, ?_, nameText_key key, valueText_scalar meaning⟩
    cases scalar with
    | double printed => cases meaning
    | _ => cases key <;> rfl
  cases op with
  | item key scalar =>
    obtain ⟨json, meaning, same⟩ := map_eq_some_iff.mp form
    cases same
    exact keyed key scalar meaning
  | stringInt32 key value =>
    cases form
    exact keyed (.binary (.ofString key)) (.int32 value) rfl
  | stringStringLen key value =>
    cases form
    exact keyed (.binary (.ofString key)) (.binary value) rfl
  | stringUint32Format key value printed =>
    cases form
    exact keyed (.binary (.ofString key)) (.uint32 value) rfl
  | _ => cases form

lemma blockName_form (form : blockName op = some name) :
    ∃ src, Op.jsonForm op = some (.startOfBlock src) ∧ kept src = name := by
  cases op with
  | startOfBlock key =>
    cases form
    exact ⟨_, rfl, rfl⟩
  | startOfBlockUint32 key =>
    cases form
    exact ⟨_, rfl, kept_digits (decimal_digits _)⟩
  | _ => cases form

lemma listName_form (form : listName op = some name) :
    ∃ src, Op.jsonForm op = some (.startOfList src) ∧ kept src = name := by
  cases op with
  | startOfList key =>
    cases form
    exact ⟨_, rfl, rfl⟩
  | _ => cases form

end

/-- The text between two operations: all but the closing characters is committed. -/
def opened (multiline : Bool) (flags : StatusFlags) (text : Bytes) : JsonText :=
  ⟨flags, text ++ closing multiline flags⟩

section
variable {multiline : Bool} {flags : StatusFlags}

lemma prepared_opened (within : flags.eor = false) (text : Bytes) :
    (opened multiline flags text).prepared multiline =
      ⟨openedFlags flags, text ++ opening multiline flags⟩ := by
  have length := @closing_length multiline flags within
  have cut : (text ++ closing multiline flags).length - closers multiline flags = text.length := by
    rw [length_append, length]
    omega
  simp only [JsonText.prepared, opened, cut, take_left']

lemma keyText_position (key : JsonKey) (position : Nat) : key.text 0 position = key.text 0 0 := by
  cases key with
  | number key => rfl
  | name bytes => simp [JsonKey.text]

lemma valueText_position (value : JsonValue) : value.text 0 position = value.text 0 0 := by
  cases value with
  | string bytes => simp [JsonValue.text]
  | _ => rfl

lemma openedFlags_list (flags : StatusFlags) : (openedFlags flags).list = flags.list := by
  unfold openedFlags
  split
  · rfl
  · split <;> rfl

lemma written_zero (t : JsonText) (key : JsonKey) (value : JsonValue) :
    t.written 0 key value =
      ⟨t.flags, t.text ++ ((if t.flags.list then [] else key.text 0 0) ++ value.text 0 0)⟩ := by
  unfold JsonText.written
  split
  · simp [JsonText.add, valueText_position]
  · simp [JsonText.add, valueText_position, keyText_position]

lemma step_item (within : flags.eor = false) (text : Bytes) (key : JsonKey) (value : JsonValue) :
    (opened multiline flags text).step multiline 0 (.item key value) =
      opened multiline { openedFlags flags with ceob := false, comma := true, notEmpty := true }
        (text ++ opening multiline flags ++
          ((if flags.list then [] else key.text 0 0) ++ value.text 0 0)) := by
  rw [← openedFlags_list flags]
  simp only [JsonText.step, prepared_opened within, written_zero]
  rfl

lemma named_zero (t : JsonText) (name mark : Bytes) :
    t.named 0 name mark = ⟨t.flags, t.text ++ (quoted 0 name ++ mark)⟩ := by
  simp [JsonText.named, JsonText.add]

lemma step_startOfBlock (within : flags.eor = false) (text name : Bytes) :
    (opened multiline flags text).step multiline 0 (.startOfBlock name) =
      opened multiline { openedFlags flags with ceob := false, comma := true, sob := true }
        (text ++ opening multiline flags ++ (quoted 0 name ++ [0x3A, 0x20, 0x7B])) := by
  simp only [JsonText.step, prepared_opened within, named_zero]
  rfl

lemma step_startOfList (within : flags.eor = false) (text name : Bytes) :
    (opened multiline flags text).step multiline 0 (.startOfList name) =
      opened multiline { openedFlags flags with
          ceob := false, comma := true, list := true, sol := true }
        (text ++ opening multiline flags ++ (quoted 0 name ++ [0x3A, 0x20, 0x5B])) := by
  simp only [JsonText.step, prepared_opened within, named_zero]
  rfl

/-- A block is closed by what closes the object around it, array included. -/
lemma step_endOfBlock :
    (opened multiline flags text).step multiline 0 .endOfBlock =
      opened multiline { flags with sob := false, ceob := false, comma := true }
        (text ++ closing multiline flags) := by
  simp only [JsonText.step, JsonText.finished, opened]
  rfl

/-- The bracket after a list stays; a multiline serializer never wrote it. -/
lemma step_endOfList (inside : flags.list = true) :
    (opened multiline flags text).step multiline 0 .endOfList =
      opened multiline { flags with sol := false, list := false }
        (text ++ if multiline then [] else [0x5D]) := by
  cases multiline <;> simp [JsonText.step, opened, closing, inside]

end

/-- Inside an object, between two of its members. -/
structure Inside (array : Bool) (flags : StatusFlags) : Prop where
  eor : flags.eor = false
  list : flags.list = false
  array : flags.array = array

/-- After the first member. -/
structure Following (array : Bool) (flags : StatusFlags) : Prop extends Inside array flags where
  sob : flags.sob = false
  comma : flags.comma = true

lemma opening_following (multiline : Bool) (following : Following array flags) :
    opening multiline flags = [0x2C] := by
  simp [opening, following.eor, following.list, following.sob, following.comma]

lemma openedFlags_inside (inside : Inside array flags) :
    openedFlags flags = { flags with sob := false } := by
  simp [openedFlags, inside.eor, inside.list]

lemma closing_inside (inside : Inside array flags) :
    closing multiline flags = 0x7D :: if !multiline && array then [0x5D] else [] := by
  simp [closing, inside.list, inside.array]

lemma steps_cons (multiline : Bool) (t : JsonText) (form : JsonForm) (rest : List JsonForm) :
    t.steps multiline (form :: rest) = (t.step multiline 0 form).steps multiline rest := rfl

lemma steps_append (multiline : Bool) (t : JsonText) (first rest : List JsonForm) :
    t.steps multiline (first ++ rest) = (t.steps multiline first).steps multiline rest :=
  foldl_append

/-- The forms of a sequence of operations. -/
def formsOf (ops : List Op) : List JsonForm := ops.filterMap Op.jsonForm

lemma formsOf_cons (shape : Op.jsonForm op = some form) (rest : List Op) :
    formsOf (op :: rest) = form :: formsOf rest :=
  filterMap_cons_some shape

lemma formsOf_append (first rest : List Op) :
    formsOf (first ++ rest) = formsOf first ++ formsOf rest := filterMap_append

section
variable {multiline : Bool} {flags : StatusFlags}

/-- Inside a list. -/
structure Listing (array : Bool) (flags : StatusFlags) : Prop where
  eor : flags.eor = false
  list : flags.list = true
  array : flags.array = array
  sob : flags.sob = false
  comma : flags.comma = true

lemma openedFlags_listing (listing : Listing array flags) :
    openedFlags flags = { flags with sol := false } := by
  simp [openedFlags, listing.eor, listing.list]

lemma Listing.next {array : Bool} (listing : Listing array flags) :
    Listing array { { flags with sol := false } with
      ceob := false, comma := true, notEmpty := true } :=
  ⟨listing.eor, listing.list, listing.array, listing.sob, rfl⟩

/-- An element of a list is its value alone behind the opening; after it the list goes
on. -/
lemma steps_element {array : Bool} (listing : Listing array flags) {op : Op} {value : JsonValue}
    (shape : Op.jsonForm op = some (.item key value)) (text : Bytes) :
    ∃ flags', Listing array flags' ∧ flags'.sol = false ∧
      (opened multiline flags text).steps multiline (formsOf (op :: rest)) =
        (opened multiline flags' (text ++ opening multiline flags ++ value.text 0 0)).steps
          multiline (formsOf rest) := by
  refine ⟨{ openedFlags flags with ceob := false, comma := true, notEmpty := true }, ?_, ?_, ?_⟩
  · rw [openedFlags_listing listing]
    exact listing.next
  · rw [openedFlags_listing listing]
  · rw [formsOf_cons shape, steps_cons, step_item listing.eor, if_pos listing.list, nil_append]

/-- The elements, each but the first behind a comma. -/
lemma steps_elements (inner : List Op) (values : List Json)
    (meaning : inner.map (fun item => (opMember item).map Prod.snd) = values.map some) :
    ∃ texts, List.Forall₂ ValueText texts values ∧ ∀ flags text, Listing array flags →
      ∃ flags', Listing array flags' ∧
        (opened multiline flags text).steps multiline (formsOf inner) =
          opened multiline flags'
            (text ++ (texts.flatMap (0x2C :: ·)).drop (if flags.sol then 1 else 0)) := by
  induction inner generalizing values with
  | nil =>
    obtain rfl : values = [] := by simpa using meaning.symm
    refine ⟨[], .nil, fun flags text listing => ⟨flags, listing, ?_⟩⟩
    simp [formsOf, JsonText.steps]
  | cons op rest ih =>
    cases values with
    | nil => cases meaning
    | cons value values =>
      simp only [map_cons, List.cons.injEq] at meaning
      obtain ⟨⟨name, _⟩, member, rfl⟩ := map_eq_some_iff.mp meaning.1
      obtain ⟨key, scalar, shape, -, here⟩ := opMember_form member
      obtain ⟨texts, later, run⟩ := ih values meaning.2
      refine ⟨scalar.text 0 0 :: texts, .cons here later, ?_⟩
      intro flags text listing
      have opens : opening multiline flags = if flags.sol then [] else [0x2C] := by
        simp [opening, listing.eor, listing.list]
      obtain ⟨middle, listing', begun, first⟩ := steps_element listing shape text
      obtain ⟨flags', listing'', result⟩ := run middle _ listing'
      refine ⟨flags', listing'', ?_⟩
      rw [first, result, begun, opens, flatMap_cons]
      cases flags.sol <;> simp

variable {texts : List Bytes} {values : List Json}

lemma reads_texts (here : ValueText text value) (later : List.Forall₂ ValueText texts values) :
    Json.ReadsElements (text ++ texts.flatMap (0x2C :: ·)) (value :: values) := by
  induction later generalizing text value with
  | nil =>
    rw [flatMap_nil, append_nil]
    exact reads_element here.reads
  | @cons next nextValue texts values first rest ih =>
    rw [flatMap_cons, cons_append]
    exact reads_elements_cons here.reads (ih first)

lemma weighs_texts (later : List.Forall₂ ValueText texts values) :
    Json.Weighs (texts.flatMap (0x2C :: ·)) 0 ∧ 0x0A ∉ texts.flatMap (0x2C :: ·) := by
  induction later with
  | nil => exact ⟨weighs_neutral (by simp), by simp⟩
  | @cons next nextValue texts values first rest ih =>
    have comma : Json.Weighs [0x2C] 0 := weighs_plain (by decide)
    rw [flatMap_cons]
    refine ⟨weighs_append (weighs_append comma first.weighs) ih.1, ?_⟩
    have line := first.line
    simp only [mem_append, mem_cons, not_or]
    exact ⟨⟨by decide, line⟩, ih.2⟩

/-- What stands between the brackets of a list. -/
structure ElementsText (text : Bytes) (values : List Json) : Prop where
  reads : Json.Reads (0x5B :: text ++ [0x5D]) (.arr values)
  weighs : Json.Weighs text 0
  line : 0x0A ∉ text

lemma elementsText_texts (all : List.Forall₂ ValueText texts values) :
    ElementsText ((texts.flatMap (0x2C :: ·)).drop 1) values := by
  cases all with
  | nil => exact ⟨reads_array_nil, weighs_neutral (by simp), by simp⟩
  | cons here later =>
    obtain ⟨weighs, line⟩ := weighs_texts later
    refine ⟨reads_array (reads_texts here later) ?_, weighs_append here.weighs weighs, ?_⟩
    · obtain ⟨b, rest, text, solid, other⟩ := here.first
      exact ⟨b, _, by rw [text]; rfl, solid, other⟩
    · exact fun mem => (mem_append.mp mem).elim here.line line

lemma steps_list (inner : List Op) (values : List Json)
    (meaning : inner.map (fun item => (opMember item).map Prod.snd) = values.map some) :
    ∃ body, ElementsText body values ∧ ∀ flags text, Listing array flags →
      flags.sol = true → ∃ flags', Listing array flags' ∧
        (opened multiline flags text).steps multiline (formsOf inner) =
          opened multiline flags' (text ++ body) := by
  obtain ⟨texts, all, run⟩ := @steps_elements multiline array inner values meaning
  refine ⟨_, elementsText_texts all, fun flags text listing begins => ?_⟩
  simpa [begins] using run flags text listing

end

section
variable (multiline array : Bool)

/-- Nothing the mode loses track of: lists on a multiline serializer, blocks once
records are separated. -/
def Intact (ops : List Op) : Prop :=
  ∀ op ∈ ops, (multiline = true → listName op = none) ∧
    (multiline = false → array = true → blockName op = none)

/-- The bracket that is missing or in excess after an operation. -/
def opDefect (op : Op) : Int :=
  if multiline then if (listName op).isSome then 1 else 0
  else if array && (blockName op).isSome then -1 else 0

def defect (ops : List Op) : Int := (ops.map (opDefect multiline array)).sum

/-- The operations add `body` to the members that are there. -/
def AddsMembers (ops : List Op) (body : Bytes) : Prop :=
  ∀ flags text, Inside array flags → ∃ flags', Following array flags' ∧
    (opened multiline flags text).steps multiline (formsOf ops) =
      opened multiline flags' (text ++ opening multiline flags ++ body)

variable {multiline array}

lemma addsMembers_append
    (here : AddsMembers multiline array ops body) (there : AddsMembers multiline array rest more) :
    AddsMembers multiline array (ops ++ rest) (body ++ 0x2C :: more) := by
  intro flags text inside
  obtain ⟨flags', following, result⟩ := here flags text inside
  obtain ⟨flags'', following', result'⟩ :=
    there flags' (text ++ opening multiline flags ++ body) following.toInside
  refine ⟨flags'', following', ?_⟩
  rw [formsOf_append, steps_append, result, result', opening_following multiline following]
  simp

/-- The text of one member; it reads as such if it is intact. -/
structure MemberText (intact : Prop) (count : Int) (text name : Bytes) (value : Json) : Prop where
  shape : ∃ body after, text = 0x22 :: body ++ 0x22 :: 0x3A :: after ∧ Json.Literal body name ∧
    (intact → Json.Reads after value)
  weighs : Json.Weighs text count
  line : 0x0A ∉ text

variable {value : Json} {op : Op} {name : Bytes}

/-- A literal, a colon and a value make a member. -/
lemma memberText_named {intact : Prop} {count : Int} {body name after : Bytes}
    (literal : Json.Literal body name) (plain : 0x0A ∉ body)
    (reads : intact → Json.Reads after value) (weighs : Json.Weighs after count)
    (line : 0x0A ∉ after) :
    MemberText intact count (0x22 :: body ++ 0x22 :: 0x3A :: after) name value := by
  refine ⟨⟨body, after, rfl, literal, reads⟩, ?_, ?_⟩
  · have colon : Json.Weighs [0x3A] 0 := weighs_plain (by decide)
    have whole := weighs_append (weighs_append (weighs_literal literal) colon) weighs
    simpa using whole
  · simp only [mem_append, mem_cons, not_or]
    exact ⟨⟨by decide, plain⟩, by decide, by decide, line⟩

/-- The text of the members of an object, without its braces. -/
structure MembersText (intact : Prop) (count : Int) (text : Bytes)
    (members : List (Bytes × Json)) : Prop where
  reads : intact → Json.ReadsMembers text members
  first : text.head? = some 0x22
  weighs : Json.Weighs text count
  line : 0x0A ∉ text

lemma membersText_one {intact : Prop} {count : Int} {text name : Bytes}
    (here : MemberText intact count text name value) :
    MembersText intact count text [(name, value)] := by
  obtain ⟨⟨body, after, rfl, literal, reads⟩, weighs, line⟩ := here
  exact ⟨fun whole => reads_member literal (reads whole), rfl, weighs, line⟩

variable {members : List (Bytes × Json)}

lemma membersText_cons {intact others : Prop} {count more : Int} {text rest name : Bytes}
    (here : MemberText intact count text name value)
    (there : MembersText others more rest members) :
    MembersText (intact ∧ others) (count + more) (text ++ 0x2C :: rest)
      ((name, value) :: members) := by
  obtain ⟨⟨body, after, rfl, literal, reads⟩, weighs, line⟩ := here
  refine ⟨fun whole => reads_members_cons literal (reads whole.1) (there.reads whole.2), rfl,
    ?_, ?_⟩
  · have comma : Json.Weighs [0x2C] 0 := weighs_plain (by decide)
    have tail := weighs_append comma there.weighs
    rw [Int.zero_add] at tail
    exact weighs_append weighs tail
  · have line' := there.line
    simp only [mem_append, mem_cons, not_or] at line ⊢
    exact ⟨line, by decide, line'⟩

/-- What a sequence of operations writes, with the members it stands for. -/
def Documents (multiline array : Bool) (ops : List Op) (members : List (Bytes × Json)) : Prop :=
  ops = [] ∧ members = [] ∨ ops ≠ [] ∧ ∃ body, AddsMembers multiline array ops body ∧
    MembersText (Intact multiline array ops) (defect multiline array ops) body members

lemma defect_append (ops rest : List Op) : defect multiline array (ops ++ rest) =
    defect multiline array ops + defect multiline array rest := by
  simp [defect]

lemma documents_cons {ops rest : List Op} {body name : Bytes} (some : ops ≠ [])
    (writes : AddsMembers multiline array ops body)
    (here : MemberText (Intact multiline array ops) (defect multiline array ops) body name value)
    (after : Documents multiline array rest members) :
    Documents multiline array (ops ++ rest) ((name, value) :: members) := by
  refine .inr ⟨by simp [some], ?_⟩
  rcases after with ⟨rfl, rfl⟩ | ⟨-, more, writes', there⟩
  · rw [append_nil]
    exact ⟨body, writes, membersText_one here⟩
  · refine ⟨_, addsMembers_append writes writes', ?_⟩
    obtain ⟨reads, first, weighs, line⟩ := membersText_cons here there
    refine ⟨fun whole => reads ⟨?_, ?_⟩, first, defect_append ops rest ▸ weighs, line⟩
    · exact fun op member => whole op (mem_append_left _ member)
    · exact fun op member => whole op (mem_append_right _ member)

lemma opMember_defect (here : opMember op = some member) : opDefect multiline array op = 0 := by
  cases op with
  | item _ _ | stringInt32 _ _ | stringStringLen _ _ | stringUint32Format _ _ _ =>
    simp [opDefect, listName, blockName]
  | _ => cases here

lemma scalar_adds (here : opMember op = some (name, value)) :
    ∃ text, AddsMembers multiline array [op] text ∧
      MemberText (Intact multiline array [op]) (defect multiline array [op]) text name value := by
  obtain ⟨key, scalar, shape, named, valued⟩ := opMember_form here
  refine ⟨key.text 0 0 ++ scalar.text 0 0, ?_, ?_⟩
  · intro flags text inside
    refine ⟨{ openedFlags flags with ceob := false, comma := true, notEmpty := true }, ?_, ?_⟩
    · rw [openedFlags_inside inside]
      exact ⟨⟨inside.eor, inside.list, inside.array⟩, rfl, rfl⟩
    · rw [formsOf_cons shape, steps_cons, step_item inside.eor, inside.list]
      rfl
  · obtain ⟨⟨body, text, literal⟩, line⟩ := named
    have none : defect multiline array [op] = 0 := by
      simp [defect, opMember_defect here]
    have plain : 0x0A ∉ body := by
      rw [text] at line
      simp only [mem_append, mem_cons, not_or] at line
      exact line.1.2
    have split : key.text 0 0 ++ scalar.text 0 0 =
        0x22 :: body ++ 0x22 :: 0x3A :: scalar.text 0 0 := by
      rw [text]
      simp
    rw [none, split]
    exact memberText_named literal plain (fun _ => valued.reads) valued.weighs valued.line

lemma blockName_defect (start : blockName op = some name) :
    opDefect multiline array op = if !multiline && array then -1 else 0 := by
  cases op with
  | startOfBlock _ | startOfBlockUint32 _ =>
    cases multiline <;> cases array <;> simp [opDefect, listName, blockName]
  | _ => cases start

lemma listName_defect (start : listName op = some name) :
    opDefect multiline array op = if multiline then 1 else 0 := by
  cases op with
  | startOfList _ => cases multiline <;> simp [opDefect, listName, blockName]
  | _ => cases start

lemma closing_weighs :
    Json.Weighs (0x7D :: if !multiline && array then [0x5D] else [])
      (if !multiline && array then -1 else 0) := by
  have brace : Json.Weighs [0x7D] 0 := weighs_plain (by decide)
  split
  · exact weighs_append brace weighs_close
  · exact brace

variable {inner : List Op}

/-- A block: its name, the members inside and what closes it. -/
lemma block_adds {inside : List (Bytes × Json)}
    (start : blockName op = some name) (within : Documents multiline array inner inside) :
    ∃ text, AddsMembers multiline array (op :: (inner ++ [.endOfBlock])) text ∧
      MemberText (Intact multiline array (op :: (inner ++ [.endOfBlock])))
        (defect multiline array (op :: (inner ++ [.endOfBlock]))) text name (.obj inside) := by
  obtain ⟨src, shape, rfl⟩ := blockName_form start
  -- the body of an empty block is the empty text
  obtain ⟨body, adds, reads, weighs, line⟩ : ∃ body,
      (∀ flags text, Inside array flags → flags.sob = true → ∃ flags', Inside array flags' ∧
        (opened multiline flags text).steps multiline (formsOf inner) =
          opened multiline flags' (text ++ body)) ∧
      (Intact multiline array inner → Json.Reads (0x7B :: body ++ [0x7D]) (.obj inside)) ∧
      Json.Weighs body (defect multiline array inner) ∧ 0x0A ∉ body := by
    rcases within with ⟨rfl, rfl⟩ | ⟨-, body, adds, text⟩
    · refine ⟨[], fun flags text inside _ => ⟨flags, inside, ?_⟩, fun _ => reads_object_nil,
        weighs_neutral (by simp), by simp⟩
      simp [formsOf, JsonText.steps]
    · refine ⟨body, fun flags text inside begun => ?_,
        fun whole => reads_object (text.reads whole) text.first, text.weighs, text.line⟩
      obtain ⟨flags', following, result⟩ := adds flags text inside
      have opens : opening multiline flags = [] := by
        simp [opening, inside.eor, inside.list, begun]
      rw [opens, append_nil] at result
      exact ⟨flags', following.toInside, result⟩
  refine ⟨quoted 0 src ++ [0x3A, 0x20, 0x7B] ++ body ++
    (0x7D :: if !multiline && array then [0x5D] else []), ?_, ?_⟩
  · intro flags text inside
    obtain ⟨flags', inside', result⟩ := adds
      { openedFlags flags with ceob := false, comma := true, sob := true }
      (text ++ opening multiline flags ++ (quoted 0 src ++ [0x3A, 0x20, 0x7B]))
      (by rw [openedFlags_inside inside]; exact ⟨inside.eor, inside.list, inside.array⟩) rfl
    refine ⟨{ flags' with sob := false, ceob := false, comma := true },
      ⟨⟨inside'.eor, inside'.list, inside'.array⟩, rfl, rfl⟩, ?_⟩
    rw [formsOf_cons shape, steps_cons, step_startOfBlock inside.eor, formsOf_append, steps_append,
      result]
    have ends : formsOf [Op.endOfBlock] = [.endOfBlock] := rfl
    rw [ends, steps_cons, step_endOfBlock, closing_inside inside']
    simp [JsonText.steps]
  · have total : defect multiline array (op :: (inner ++ [.endOfBlock])) =
        0 + defect multiline array inner + if !multiline && array then -1 else 0 := by
      have last : opDefect multiline array .endOfBlock = 0 := by simp [opDefect, listName, blockName]
      simp only [defect, map_cons, map_append, sum_cons, sum_append, map_nil,
        sum_nil, blockName_defect start, last]
      omega
    have split : 0x22 :: escaped src ++ [0x22] ++ [0x3A, 0x20, 0x7B] ++ body ++
        (0x7D :: if !multiline && array then [0x5D] else []) =
        0x22 :: escaped src ++ 0x22 :: 0x3A :: ([0x20, 0x7B] ++ body ++
          (0x7D :: if !multiline && array then [0x5D] else [])) := by simp
    rw [total, quoted_zero, split]
    apply memberText_named (literal_escaped src) (escaped_line src)
    · intro whole
      have plain : (!multiline && array) = false := by
        have here := (whole op (by simp)).2
        cases multiline with
        | true => rfl
        | false =>
          cases array with
          | false => rfl
          | true =>
            rw [here rfl rfl] at start
            cases start
      simp only [plain, Bool.false_eq_true, if_false]
      exact reads_space (reads fun other member => whole other (by simp [member]))
    · have mark : Json.Weighs [0x20, 0x7B] 0 := weighs_plain (by decide)
      exact weighs_append (weighs_append mark weighs) closing_weighs
    · simp only [mem_append, mem_cons, not_or, not_mem_nil, not_false_eq_true,
        and_true]
      refine ⟨⟨⟨by decide, by decide⟩, line⟩, by decide, ?_⟩
      split <;> simp

lemma elements_defect {values : List Json}
    (within : inner.map (fun item => (opMember item).map Prod.snd) = values.map some) :
    (inner.map (opDefect multiline array)).sum = 0 := by
  induction inner generalizing values with
  | nil => rfl
  | cons op rest ih =>
    cases values with
    | nil => cases within
    | cons value values =>
      simp only [map_cons, List.cons.injEq] at within
      obtain ⟨member, here, -⟩ := map_eq_some_iff.mp within.1
      rw [map_cons, sum_cons, opMember_defect here, ih within.2]
      rfl

lemma list_adds {values : List Json} (start : listName op = some name)
    (within : inner.map (fun item => (opMember item).map Prod.snd) = values.map some) :
    ∃ text, AddsMembers multiline array (op :: (inner ++ [.endOfList])) text ∧
      MemberText (Intact multiline array (op :: (inner ++ [.endOfList])))
        (defect multiline array (op :: (inner ++ [.endOfList]))) text name (.arr values) := by
  obtain ⟨src, shape, rfl⟩ := listName_form start
  obtain ⟨body, text, adds⟩ := @steps_list multiline array inner values within
  refine ⟨quoted 0 src ++ [0x3A, 0x20, 0x5B] ++ body ++ if multiline then [] else [0x5D], ?_, ?_⟩
  · intro flags text inside
    obtain ⟨flags', listing, result⟩ := adds
      { openedFlags flags with ceob := false, comma := true, list := true, sol := true }
      (text ++ opening multiline flags ++ (quoted 0 src ++ [0x3A, 0x20, 0x5B]))
      (by rw [openedFlags_inside inside]; exact ⟨inside.eor, rfl, inside.array, rfl, rfl⟩) rfl
    refine ⟨{ flags' with sol := false, list := false },
      ⟨⟨listing.eor, rfl, listing.array⟩, listing.sob, listing.comma⟩, ?_⟩
    rw [formsOf_cons shape, steps_cons, step_startOfList inside.eor, formsOf_append, steps_append,
      result]
    have ends : formsOf [Op.endOfList] = [.endOfList] := rfl
    rw [ends, steps_cons, step_endOfList listing.list]
    simp [JsonText.steps]
  · have total : defect multiline array (op :: (inner ++ [.endOfList])) =
        0 + 1 + 0 + if multiline then 0 else -1 := by
      have last : opDefect multiline array .endOfList = 0 := by simp [opDefect, listName, blockName]
      simp only [defect, map_cons, map_append, sum_cons, sum_append, map_nil,
        sum_nil, listName_defect start, last, elements_defect within]
      split <;> omega
    have split : 0x22 :: escaped src ++ [0x22] ++ [0x3A, 0x20, 0x5B] ++ body ++
        (if multiline then [] else [0x5D]) =
        0x22 :: escaped src ++ 0x22 :: 0x3A :: ([0x20] ++ [0x5B] ++ body ++
          if multiline then [] else [0x5D]) := by simp
    rw [total, quoted_zero, split]
    apply memberText_named (literal_escaped src) (escaped_line src)
    · intro whole
      have plain : multiline = false := by
        have here := (whole op (by simp)).1
        cases multiline with
        | false => rfl
        | true =>
          rw [here rfl] at start
          cases start
      simp only [plain, Bool.false_eq_true, if_false]
      exact reads_space text.reads
    · have space : Json.Weighs [0x20] 0 := weighs_plain (by decide)
      have bracket : Json.Weighs (if multiline then [] else [0x5D])
          (if multiline then 0 else -1) := by
        split
        · exact weighs_neutral (by simp)
        · exact weighs_close
      exact weighs_append
        (weighs_append (weighs_append space weighs_open) text.weighs) bracket
    · have line := text.line
      simp only [mem_append, mem_cons, not_or, not_mem_nil, not_false_eq_true, and_true]
      refine ⟨⟨⟨by decide, by decide⟩, line⟩, ?_⟩
      split <;> simp

/-- A well-nested sequence of operations adds the text of its members. -/
lemma nested_documents (nested : Nested ops members) : Documents multiline array ops members := by
  induction nested with
  | nil => exact .inl ⟨rfl, rfl⟩
  | @scalar op member rest members here _ ih =>
    obtain ⟨text, adds, described⟩ := @scalar_adds multiline array member.2 op member.1 here
    exact documents_cons (by simp) adds described ih
  | @block op name inner rest inside members start _ _ within ih =>
    obtain ⟨text, adds, described⟩ := block_adds start within
    have split : op :: (inner ++ .endOfBlock :: rest) = (op :: (inner ++ [.endOfBlock])) ++ rest := by
      simp
    rw [split]
    exact documents_cons (by simp) adds described ih
  | @list op name inner rest values members start within _ ih =>
    obtain ⟨text, adds, described⟩ := @list_adds multiline array op name inner values start within
    have split : op :: (inner ++ .endOfList :: rest) = (op :: (inner ++ [.endOfList])) ++ rest := by
      simp
    rw [split]
    exact documents_cons (by simp) adds described ih

lemma defect_cons (op : Op) : defect multiline array (op :: rest) =
    opDefect multiline array op + defect multiline array rest := by
  simp [defect]

lemma intact_cons (here : opDefect multiline array op = 0) (there : Intact multiline array rest) :
    Intact multiline array (op :: rest) := by
  intro other member
  rcases mem_cons.mp member with rfl | later
  · unfold opDefect at here
    refine ⟨fun mode => ?_, fun mode separated => ?_⟩
    · rw [if_pos mode] at here
      cases named : listName other with
      | none => rfl
      | some name => simp [named] at here
    · rw [if_neg (by simp [mode]), separated] at here
      cases named : blockName other with
      | none => rfl
      | some name => simp [named] at here
  · exact there other later

/-- The brackets a mode loses are all of one kind, so a sequence that is not intact
leaves some over. -/
lemma intact_of_defect (balanced : defect multiline array ops = 0) :
    Intact multiline array ops := by
  have signs : (multiline = true → 0 ≤ defect multiline array ops) ∧
      (multiline = false → defect multiline array ops ≤ 0) ∧
      (defect multiline array ops = 0 → Intact multiline array ops) := by
    clear balanced
    induction ops with
    | nil => exact ⟨fun _ => Int.le_refl _, fun _ => Int.le_refl _, fun _ _ member => by cases member⟩
    | cons op rest ih =>
      obtain ⟨up, down, intact⟩ := ih
      rw [defect_cons]
      have range : (multiline = true → 0 ≤ opDefect multiline array op) ∧
          (multiline = false → opDefect multiline array op ≤ 0) := by
        unfold opDefect
        cases multiline <;> simp <;> split <;> simp
      cases mode : multiline with
      | true =>
        subst mode
        have here := range.1 rfl
        have there := up rfl
        refine ⟨fun _ => by omega, fun no => Bool.noConfusion no, fun balanced => ?_⟩
        exact intact_cons (by omega) (intact (by omega))
      | false =>
        subst mode
        have here := range.2 rfl
        have there := down rfl
        refine ⟨fun no => Bool.noConfusion no, fun _ => by omega, fun balanced => ?_⟩
        exact intact_cons (by omega) (intact (by omega))
  exact signs.2.2 balanced

end

/-- An operation with a form, other than the end of a record. -/
def Op.Inner (op : Op) : Prop := op ≠ .endOfRecord ∧ ∃ form, Op.jsonForm op = some form

lemma opMember_inner (here : opMember op = some member) : Op.Inner op := by
  obtain ⟨key, value, shape, -, -⟩ := @opMember_form op member.1 member.2 here
  refine ⟨?_, _, shape⟩
  rintro rfl
  cases here

/-- No end of record and no raw record. -/
lemma nested_forms (nested : Nested ops members) : ∀ op ∈ ops, Op.Inner op := by
  induction nested with
  | nil => simp
  | scalar here _ ih => exact forall_mem_cons.mpr ⟨opMember_inner here, ih⟩
  | block start _ _ within ih =>
    obtain ⟨src, shape, -⟩ := blockName_form start
    rw [forall_mem_cons, forall_mem_append, forall_mem_cons]
    refine ⟨⟨?_, _, shape⟩, within, ⟨by simp, _, rfl⟩, ih⟩
    rintro rfl
    cases start
  | @list op name inner rest values members start within _ ih =>
    obtain ⟨src, shape, -⟩ := listName_form start
    rw [forall_mem_cons, forall_mem_append, forall_mem_cons]
    refine ⟨⟨?_, _, shape⟩, ?_, ⟨by simp, _, rfl⟩, ih⟩
    · rintro rfl
      cases start
    · intro item here
      have image := mem_map_of_mem (f := fun item => (opMember item).map Prod.snd) here
      rw [within] at image
      obtain ⟨value, -, same⟩ := mem_map.mp image
      obtain ⟨meaning, here, -⟩ := map_eq_some_iff.mp same.symm
      exact opMember_inner here

section
variable {multiline : Bool} {flags : StatusFlags}

/-- Between two records. -/
structure Ended (flags : StatusFlags) : Prop where
  eor : flags.eor = true
  array : flags.array = true
  list : flags.list = false
  sob : flags.sob = false
  comma : flags.comma = false

/-- A form that takes back the closing characters before it writes. -/
def JsonForm.Opens : JsonForm → Prop
  | .item _ _ | .startOfList _ | .startOfBlock _ => True
  | .endOfList | .endOfBlock | .endOfRecord => False

lemma step_congr {t t' : JsonText} (same : t.prepared multiline = t'.prepared multiline)
    {form : JsonForm} (opens : form.Opens) : t.step multiline 0 form = t'.step multiline 0 form := by
  cases form with
  | item key value => simp [JsonText.step, same]
  | startOfList name => simp [JsonText.step, same]
  | startOfBlock name => simp [JsonText.step, same]
  | _ => exact opens.elim

variable {members : List (Bytes × Json)}

lemma nested_opens (nested : Nested (op :: rest) members) :
    ∃ form, Op.jsonForm op = some form ∧ form.Opens := by
  cases nested with
  | @scalar _ member _ _ here _ =>
    obtain ⟨key, value, shape, -, -⟩ := @opMember_form op member.1 member.2 here
    exact ⟨_, shape, trivial⟩
  | block start _ _ =>
    obtain ⟨src, shape, -⟩ := blockName_form start
    exact ⟨_, shape, trivial⟩
  | list start _ _ =>
    obtain ⟨src, shape, -⟩ := listName_form start
    exact ⟨_, shape, trivial⟩

/-- The first operation of a record opens an object behind the records before. -/
lemma prepared_ended (ended : Ended flags) :
    JsonText.prepared multiline ⟨flags, text ++ if multiline then [] else [0x5D]⟩ =
      (opened multiline { flags with eor := false }
        (text ++ [if multiline then 0x0A else 0x2C, 0x7B])).prepared multiline := by
  rw [prepared_opened rfl]
  have opens : opening multiline { flags with eor := false } = [] := by
    simp [opening, ended.list, ended.sob, ended.comma]
  have flagged : openedFlags { flags with eor := false } = openedFlags flags := by
    simp [openedFlags, ended.eor, ended.list, ended.sob]
  rw [opens, flagged]
  cases multiline <;> simp [JsonText.prepared, closers, opening, ended.eor]

lemma steps_ended (ended : Ended flags) {ops : List Op} (nested : Nested ops members)
    (some : ops ≠ []) {body : Bytes} (adds : AddsMembers multiline true ops body) (text : Bytes) :
    ∃ flags', Following true flags' ∧
      JsonText.steps multiline ⟨flags, text ++ if multiline then [] else [0x5D]⟩ (formsOf ops) =
        opened multiline flags' (text ++ [if multiline then 0x0A else 0x2C, 0x7B] ++ body) := by
  cases ops with
  | nil => exact absurd rfl some
  | cons op rest =>
    obtain ⟨form, shape, opens⟩ := nested_opens nested
    obtain ⟨flags', following, result⟩ := adds { flags with eor := false }
      (text ++ [if multiline then 0x0A else 0x2C, 0x7B]) ⟨rfl, ended.list, ended.array⟩
    have silent : opening multiline { flags with eor := false } = [] := by
      simp [opening, ended.list, ended.sob, ended.comma]
    refine ⟨flags', following, ?_⟩
    rw [formsOf_cons shape, steps_cons, silent, append_nil] at result
    rw [formsOf_cons shape, steps_cons, step_congr (prepared_ended ended) opens]
    exact result

end

lemma forms_formsOf (shapes : ∀ op ∈ calls.map Call.op, ∃ form, Op.jsonForm op = some form) :
    Forms calls (formsOf (calls.map Call.op)) := by
  induction calls with
  | nil => exact .nil
  | cons call rest ih =>
    obtain ⟨form, shape⟩ := shapes call.op (by simp)
    rw [map_cons, formsOf_cons shape]
    exact .cons shape (ih fun op member => shapes op (.tail _ member))

end Ndpi.Refinement
