import Ndpi.Source.FileLoaders

/-!
# The names of a category file

A name should be a whole line of at most 253 characters. What is handed over for each
line is compared with that, call by call, with the place in the file each call comes
from: a line that the buffer cannot hold is read as several.
-/
namespace Ndpi.Guarantees.CategoryFile
open Lib Source.CustomRules Source.FileLoaders List

/-- A line without a newline at its end, with or without a carriage return before it. -/
def stripTerminator (line : Text) : Text :=
  if line.getLast? = some '\n' then
    if line.dropLast.getLast? = some '\r' then line.dropLast.dropLast else line.dropLast
  else line

/-- The name that a line has. -/
def entryName (line : Text) : Option Text :=
  let text := stripTerminator line
  if text ≠ [] ∧ text.length ≤ 253 ∧ text.head? ≠ some '#' ∧ text.all isNameChar = true then
    some text
  else none

/-- The calls that a file asks for. -/
def entryCalls (categoryId : Nat) (pieces : List (Nat × Text)) : List CategoryCall :=
  pieces.filterMap fun piece => (entryName piece.2).map (categoryCall categoryId piece.1)

/-- A text for which no name is handed over: it is too short or fills the buffer, it is
a comment, or the first character that no name has is no line end and has at least two
characters after it. -/
def Refused (text : Text) : Prop :=
  text.length ≤ 1 ∨ text.length = 255 ∨ text.head? = some '#' ∨
    ∃ name c rest, text = name ++ c :: rest ∧ (∀ d ∈ name, isNameChar d = true) ∧
      isNameChar c = false ∧ c ≠ '\r' ∧ c ≠ '\n' ∧ 2 ≤ rest.length

lemma room_positive : 0 < 255 := by decide

/-- A line that is read as it should be. -/
def LineRead (line : Text) : Prop :=
  (entryName line ≠ none → 2 ≤ line.length ∧ line.length ≤ 254) ∧
    (entryName line = none → ∀ bytes ∈ reads 255 room_positive line, Refused (cString bytes))

section

lemma stops_eq : (c == '\r' || c == '\n' || !isNameChar c) = !isNameChar c := by
  by_cases carriage : c = '\r'
  · subst carriage; decide
  by_cases feed : c = '\n'
  · subst feed; decide
  simp [carriage, feed]

/-- The characters of a name up to the first other one. -/
lemma split_name :
    (∀ c ∈ text, isNameChar c = true) ∨
      ∃ name c rest, text = name ++ c :: rest ∧ (∀ d ∈ name, isNameChar d = true) ∧
        isNameChar c = false := by
  induction text with
  | nil => exact .inl (by simp)
  | cons c text ih =>
    by_cases other : isNameChar c = true
    · obtain all | ⟨name, d, rest, rfl, inside, stop⟩ := ih
      · exact .inl (forall_mem_cons.mpr ⟨other, all⟩)
      · exact .inr ⟨c :: name, d, rest, rfl, forall_mem_cons.mpr ⟨other, inside⟩, stop⟩
    · exact .inr ⟨[], c, text, rfl, by simp, by simpa using other⟩

lemma findIdx_all {name : Text} (inside : ∀ d ∈ name, isNameChar d = true) :
    (name.findIdx fun c => c == '\r' || c == '\n' || !isNameChar c) = name.length := by
  refine findIdx_eq_length_of_false fun c member => ?_
  rw [stops_eq, inside c member]
  rfl

lemma findIdx_stop {name : Text} (inside : ∀ d ∈ name, isNameChar d = true)
    (stop : isNameChar c = false) :
    ((name ++ c :: rest).findIdx fun c => c == '\r' || c == '\n' || !isNameChar c) =
      name.length := by
  rw [findIdx_append, findIdx_all inside, if_neg (lt_irrefl _), findIdx_cons, stops_eq, stop]
  exact zero_add _

lemma split_unique (same : name ++ c :: rest = name' ++ c' :: rest')
    (inside : ∀ d ∈ name, isNameChar d = true) (stop : isNameChar c = false)
    (inside' : ∀ d ∈ name', isNameChar d = true) (stop' : isNameChar c' = false) :
    name = name' ∧ c = c' ∧ rest = rest' := by
  have length : name.length = name'.length := by
    rw [← findIdx_stop inside stop, same, findIdx_stop inside' stop']
  obtain ⟨left, right⟩ := append_inj same length
  exact ⟨left, List.cons.inj right⟩

lemma ne_comment {text : Text} (inside : ∀ c ∈ text, isNameChar c = true) :
    text.head? ≠ some '#' := by
  intro comment
  have named := inside '#' (mem_of_head? comment)
  exact absurd named (by decide)

variable {bytes : Text}

lemma categoryLine_all (long : 1 < (cString bytes).length) (short : (cString bytes).length ≠ 255)
    (inside : ∀ c ∈ cString bytes, isNameChar c = true) :
    categoryLine bytes = .named (cString bytes) := by
  unfold categoryLine
  dsimp only
  rw [if_neg (by omega), if_neg (ne_comment inside), findIdx_all inside,
    getElem?_eq_none (le_refl _), if_neg (by simp), if_neg (by simp)]

lemma categoryLine_stop (whole : cString bytes = name ++ c :: rest)
    (long : 1 < (cString bytes).length) (short : (cString bytes).length ≠ 255)
    (plain : (cString bytes).head? ≠ some '#') (inside : ∀ d ∈ name, isNameChar d = true)
    (stop : isNameChar c = false) :
    categoryLine bytes =
      if c = '\r' ∨ c = '\n' then .named name
      else if 2 ≤ rest.length then .failed else .named (cString bytes) := by
  unfold categoryLine
  dsimp only
  rw [if_neg (by omega), if_neg plain, whole, findIdx_stop inside stop]
  have found : (name ++ c :: rest)[name.length]? = some c := by
    rw [getElem?_append_right (Nat.le_refl _), Nat.sub_self]
    rfl
  have length : (name ++ c :: rest).length = name.length + (rest.length + 1) := by
    rw [length_append, length_cons]
  have same : (some c = some '\r' ∨ some c = some '\n') ↔ (c = '\r' ∨ c = '\n') := by
    rw [Option.some_inj, Option.some_inj]
  rw [found, length, take_left]
  by_cases ends : c = '\r' ∨ c = '\n'
  · rw [if_pos ends, if_pos (same.mpr ends)]
  · rw [if_neg ends, if_neg (same.not.mpr ends)]
    by_cases more : 2 ≤ rest.length
    · rw [if_pos more, if_pos ⟨by omega, by omega, Option.some_ne_none c⟩]
    · rw [if_neg more, if_neg (by omega)]

lemma categoryLine_refused_iff : (categoryLine bytes).name = none ↔ Refused (cString bytes) := by
  unfold Refused
  by_cases size : (cString bytes).length ≤ 1 ∨ (cString bytes).length = 255
  · have line : categoryLine bytes = .failed := if_pos size
    rw [line]
    exact iff_of_true rfl (by tauto)
  obtain ⟨long, short⟩ := not_or.mp size
  by_cases plain : (cString bytes).head? = some '#'
  · have line : categoryLine bytes = .passed := by
      unfold categoryLine
      rw [if_neg size, if_pos plain]
    rw [line]
    exact iff_of_true rfl (.inr (.inr (.inl plain)))
  rw [or_iff_right long, or_iff_right short, or_iff_right plain]
  obtain all | ⟨name, c, rest, whole, inside, stop⟩ := split_name
  · rw [categoryLine_all (Nat.lt_of_not_le long) short all]
    apply iff_of_false (Option.some_ne_none _)
    rintro ⟨name, c, rest, whole, -, stop, -⟩
    have named := all c (by rw [whole]; simp)
    rw [stop] at named
    cases named
  · rw [categoryLine_stop whole (Nat.lt_of_not_le long) short plain inside stop]
    have unique : (∃ name c rest, cString bytes = name ++ c :: rest ∧
        (∀ d ∈ name, isNameChar d = true) ∧ isNameChar c = false ∧ c ≠ '\r' ∧ c ≠ '\n' ∧
          2 ≤ rest.length) ↔ (c ≠ '\r' ∧ c ≠ '\n') ∧ 2 ≤ rest.length := by
      constructor
      · rintro ⟨name', c', rest', whole', inside', stop', carriage, feed, more⟩
        obtain ⟨-, rfl, rfl⟩ := split_unique (whole'.symm.trans whole) inside' stop' inside stop
        exact ⟨⟨carriage, feed⟩, more⟩
      · intro other
        exact ⟨name, c, rest, whole, inside, stop, other.1.1, other.1.2, other.2⟩
    rw [unique, ← not_or]
    split
    · next ends =>
      exact iff_of_false (Option.some_ne_none _) (fun both => both.1 ends)
    · next ends =>
      rw [and_iff_right ends]
      split
      · next more =>
        exact iff_of_true rfl more
      · next more =>
        exact iff_of_false (Option.some_ne_none _) more

end

section

variable {line name : Text}

lemma stripTerminator_cases (line : Text) :
    line = stripTerminator line ∨ line = stripTerminator line ++ ['\n'] ∨
      line = stripTerminator line ++ ['\r', '\n'] := by
  unfold stripTerminator
  split
  · next feed =>
    obtain ⟨body, rfl⟩ := getLast?_eq_some_iff.mp feed
    rw [dropLast_concat]
    split
    · next carriage =>
      obtain ⟨text, rfl⟩ := getLast?_eq_some_iff.mp carriage
      rw [dropLast_concat, append_assoc]
      exact .inr (.inr rfl)
    · exact .inr (.inl rfl)
  · exact .inl rfl

variable (entry : entryName line = some name)
include entry

lemma entryName_eq_some :
    stripTerminator line = name ∧ name ≠ [] ∧ name.length ≤ 253 ∧
      ∀ c ∈ name, isNameChar c = true := by
  unfold entryName at entry
  dsimp only at entry
  split at entry
  · next formed =>
    cases entry
    exact ⟨rfl, formed.1, formed.2.1, all_eq_true.mp formed.2.2.2⟩
  · cases entry

/-- A line with a name is that name and its terminator. -/
lemma line_of_entryName :
    line = name ∨ line = name ++ ['\n'] ∨ line = name ++ ['\r', '\n'] := by
  have cases := stripTerminator_cases line
  rwa [(entryName_eq_some entry).1] at cases

lemma entryName_clean : '\x00' ∉ line := by
  have inside := (entryName_eq_some entry).2.2.2
  have zero : '\x00' ∉ name := fun member => absurd (inside _ member) (by decide)
  obtain rfl | rfl | rfl := line_of_entryName entry
  · exact zero
  · simpa using zero
  · simpa using zero

lemma categoryLine_entry (long : 2 ≤ line.length) (short : line.length ≤ 254) :
    categoryLine line = .named name := by
  obtain ⟨-, some, -, inside⟩ := entryName_eq_some entry
  have whole : cString line = line := takeWhile_ne_of_notMem (entryName_clean entry)
  have ended : ∀ {c : Char} {rest : Text}, line = name ++ c :: rest → c = '\r' ∨ c = '\n' →
      categoryLine line = .named name := by
    intro c rest shape ends
    have stop : isNameChar c = false := by
      obtain rfl | rfl := ends <;> decide
    have plain : line.head? ≠ Option.some '#' := by
      rw [shape, head?_append_of_ne_nil _ some]
      exact ne_comment inside
    rw [categoryLine_stop (whole.trans shape) (by rw [whole]; omega) (by rw [whole]; omega)
      (by rw [whole]; exact plain) inside stop, if_pos ends]
  obtain rfl | shape | shape := line_of_entryName entry
  · rw [categoryLine_all (by rw [whole]; omega) (by rw [whole]; omega)
      (by rw [whole]; exact inside), whole]
  · exact ended shape (.inr rfl)
  · exact ended shape (.inl rfl)

omit entry

lemma categoryLine_too_short_or_long (clean : '\x00' ∉ line)
    (size : ¬ (2 ≤ line.length ∧ line.length ≤ 254)) (fits : line.length ≤ 255) :
    (categoryLine line).name = none := by
  have whole : cString line = line := takeWhile_ne_of_notMem clean
  rw [categoryLine_refused_iff, whole, Refused]
  omega

lemma entryName_length (entry : entryName line = some name) : line.length ≤ 255 := by
  have short := (entryName_eq_some entry).2.2.1
  obtain rfl | rfl | rfl := line_of_entryName entry
  · omega
  · rw [length_append, length_singleton]
    omega
  · rw [length_append]
    exact Nat.add_le_add_right short 2

end

variable (categoryId : Nat)

lemma placed_append (start : Nat) (first more : List Text) :
    placed start (first ++ more) =
      placed start first ++ placed (start + first.flatten.length) more := by
  induction first generalizing start with
  | nil => rfl
  | cons piece first ih =>
    rw [cons_append, placed, placed, ih, flatten_cons, length_append, add_assoc]
    rfl

lemma categoryCalls_append (first more : List (Nat × Text)) :
    categoryCalls categoryId (first ++ more) =
      categoryCalls categoryId first ++ categoryCalls categoryId more :=
  filterMap_append

lemma placed_mem (nonempty : ∀ piece ∈ pieces, piece ≠ [])
    (member : piece ∈ placed start pieces) :
    piece.2 ∈ pieces ∧ start ≤ piece.1 ∧ piece.1 < start + pieces.flatten.length := by
  induction pieces generalizing start with
  | nil => cases member
  | cons first rest ih =>
    rw [forall_mem_cons] at nonempty
    have positive := length_pos_of_ne_nil nonempty.1
    rw [flatten_cons, length_append]
    obtain rfl | later := mem_cons.mp member
    · exact ⟨mem_cons_self, le_refl _, by dsimp only; omega⟩
    · obtain ⟨inside, least, most⟩ := ih nonempty.2 later
      exact ⟨mem_cons_of_mem _ inside, by omega, by omega⟩

lemma placed_texts (start : Nat) (pieces : List Text) :
    (placed start pieces).map Prod.snd = pieces := by
  induction pieces generalizing start with
  | nil => rfl
  | cons piece pieces ih => rw [placed, map_cons, ih]

variable {categoryId}

/-- The calls made for some pieces of a file have their places. -/
lemma place_of_call (pick : Text → Option Text) {pieces : List (Nat × Text)}
    (member : call ∈ pieces.filterMap fun piece =>
      (pick piece.2).map (categoryCall categoryId piece.1)) :
    ∃ piece ∈ pieces, call.place = piece.1 := by
  obtain ⟨piece, listed, made⟩ := mem_filterMap.mp member
  obtain ⟨name, -, rfl⟩ := Option.map_eq_some_iff.mp made
  exact ⟨piece, listed, rfl⟩

lemma append_eq_append_iff_of_place {first : List CategoryCall} (bound : Nat)
    (below : ∀ call ∈ first, call.place < bound) (below' : ∀ call ∈ first', call.place < bound)
    (above : ∀ call ∈ more, bound ≤ call.place) (above' : ∀ call ∈ more', bound ≤ call.place) :
    first ++ more = first' ++ more' ↔ first = first' ∧ more = more' := by
  have split : ∀ {low high : List CategoryCall}, (∀ call ∈ low, call.place < bound) →
      (∀ call ∈ high, bound ≤ call.place) →
        (low ++ high).filter (·.place < bound) = low := by
    intro low high small large
    rw [filter_append,
      filter_eq_self.mpr fun call member => decide_eq_true (small call member),
      filter_eq_nil_iff.mpr fun call member => ?_, append_nil]
    exact fun less => not_lt.mpr (large call member) (of_decide_eq_true less)
  refine ⟨fun same => ?_, fun same => by rw [same.1, same.2]⟩
  have left : first = first' := by rw [← split below above, same, split below' above']
  subst left
  exact ⟨rfl, append_cancel_left same⟩

/-- One line. -/
lemma line_calls_iff (member : line ∈ lines '\n' content) (start : Nat) :
    categoryCalls categoryId (placed start (reads 255 (by decide) line)) =
        ((entryName line).map (categoryCall categoryId start)).toList ↔ LineRead line := by
  unfold LineRead
  cases entry : entryName line with
  | none =>
    have refused : categoryCalls categoryId (placed start (reads 255 (by decide) line)) = [] ↔
        ∀ bytes ∈ reads 255 (by decide) line, Refused (cString bytes) := by
      unfold categoryCalls
      rw [filterMap_eq_nil_iff]
      nth_rewrite 2 [← placed_texts start (reads 255 (by decide) line)]
      rw [List.forall_mem_map]
      refine forall₂_congr fun piece _ => ?_
      rw [Option.map_eq_none_iff, categoryLine_refused_iff]
    rw [and_iff_right (fun some => absurd rfl some)]
    exact refused.trans ⟨fun all _ => all, fun all => all rfl⟩
  | some name =>
    have single : reads 255 (by decide) line = [line] :=
      chunks_of_mem_lines _ member (entryName_length entry)
    rw [single, and_iff_left (fun none => by cases none),
      forall_prop_of_true (Option.some_ne_none _)]
    by_cases fits : 2 ≤ line.length ∧ line.length ≤ 254
    · refine iff_of_true ?_ fits
      simp [categoryCalls, placed, categoryLine_entry entry fits.1 fits.2, CategoryLine.name]
    · refine iff_of_false ?_ fits
      have none := categoryLine_too_short_or_long (entryName_clean entry) fits
        (entryName_length entry)
      simp [categoryCalls, placed, none]

lemma lines_calls_iff {content : Text}
    (listed : ∀ line ∈ pieces, line ∈ lines '\n' content) (start : Nat) :
    categoryCalls categoryId (placed start (pieces.flatMap (reads 255 (by decide)))) =
        entryCalls categoryId (placed start pieces) ↔ ∀ line ∈ pieces, LineRead line := by
  induction pieces generalizing start with
  | nil => exact iff_of_true rfl (by simp)
  | cons line pieces ih =>
    rw [forall_mem_cons] at listed ⊢
    have flat : (reads 255 (by decide) line).flatten = line := chunks_flatten _ line
    have entries : entryCalls categoryId (placed start (line :: pieces)) =
        ((entryName line).map (categoryCall categoryId start)).toList ++
          entryCalls categoryId (placed (start + line.length) pieces) := by
      rw [placed, entryCalls, filterMap_cons]
      cases entryName line <;> rfl
    rw [flatMap_cons, placed_append, categoryCalls_append, flat, entries,
      append_eq_append_iff_of_place (start + line.length), line_calls_iff listed.1,
      ih listed.2]
    · intro call made
      obtain ⟨piece, inside, place⟩ := place_of_call (fun text => (categoryLine text).name) made
      have bounds := placed_mem (fun piece member => ne_nil_of_mem_chunks _ member) inside
      rw [flat] at bounds
      omega
    · intro call made
      obtain ⟨name, -, rfl⟩ := Option.map_eq_some_iff.mp (Option.mem_toList.mp made)
      have positive := length_pos_of_ne_nil (ne_nil_of_mem_lines listed.1)
      exact Nat.lt_add_of_pos_right positive
    · intro call made
      obtain ⟨piece, inside, place⟩ := place_of_call (fun text => (categoryLine text).name) made
      have bounds := placed_mem (fun piece member => ?_) inside
      · omega
      · obtain ⟨other, -, chunked⟩ := mem_flatMap.mp member
        exact ne_nil_of_mem_chunks _ chunked
    · intro call made
      obtain ⟨piece, inside, place⟩ := place_of_call entryName made
      have bounds := placed_mem (fun piece member => ne_nil_of_mem_lines (listed.2 piece member))
        inside
      omega

/-- The calls are those that the lines of the file ask for exactly if every line is read
as it should be. -/
theorem names_handed_iff (loads : Text → Bool) (categoryId : Nat) (content : Text) :
    (loadCategoryFileFd loads categoryId content).2 =
        entryCalls categoryId (placed 0 (lines '\n' content)) ↔
      ∀ line ∈ lines '\n' content, LineRead line := by
  have pieces : reads 255 (by decide) content =
      (lines '\n' content).flatMap (reads 255 (by decide)) := chunks_eq_flatMap _ content
  rw [← lines_calls_iff (fun _ member => member) 0, ← pieces]
  rfl

/-- A bad character before the newline is let through, a blank line gives an empty name,
and the end of a long line is taken for a line. -/
theorem bad_names_handed :
    ((loadCategoryFileFd (fun _ => true) 5 ['a', '!', '\n']).2.map (·.name) =
        [['a', '!', '\n']] ∧ entryCalls 5 (placed 0 (lines '\n' ['a', '!', '\n'])) = []) ∧
    ((loadCategoryFileFd (fun _ => true) 5 ['\r', '\n']).2.map (·.name) = [[]] ∧
      entryCalls 5 (placed 0 (lines '\n' ['\r', '\n'])) = []) ∧
    ((loadCategoryFileFd (fun _ => true) 5 (List.replicate 257 'a' ++ ['\n'])).2.map (·.name) =
        [['a', 'a']] ∧
      entryCalls 5 (placed 0 (lines '\n' (List.replicate 257 'a' ++ ['\n']))) = []) := by
  decide +kernel

end Ndpi.Guarantees.CategoryFile
