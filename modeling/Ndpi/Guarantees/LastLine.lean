import Ndpi.Source.FileLoaders

/-!
# The newline at the end of a file

Four of the loaders cut off the last character of each line, whatever it is. When the
last line has no newline this is a character of its text. Each loader hands on the
same with and without the newline exactly where the cut goes unnoticed.
-/
namespace Ndpi.Guarantees.LastLine
open Lib Source.CustomRules Source.FileLoaders List Option

/-- A file without a newline at its end: what comes before the last line, and that
line. With the newline each line fits a buffer of this room. -/
structure OpenEnd (room : Nat) (before last : Text) : Prop where
  start : before = [] ∨ before.getLast? = some '\n'
  nonempty : last ≠ []
  inner : '\n' ∉ last
  fit : ∀ line ∈ lines '\n' (before ++ last ++ ['\n']), line.length ≤ room

/-- A comment, or a line that a zero byte ends before its last character. -/
def Ignored (last : Text) : Prop := last.head? = some '#' ∨ '\x00' ∈ last

/-- A parameter and its value, possibly with a protocol before them. -/
def WellFormed (line : Text) : Prop :=
  line.count ',' = 1 ∧ (tokens ',' line).length = 2 ∨
    line.count ',' = 2 ∧ (tokens ',' line).length = 3

section

variable {room : Nat} {positive : 0 < room} {before last : Text}

variable (file : OpenEnd room before last)
include file

lemma OpenEnd.lines_open :
    lines '\n' (before ++ last) = lines '\n' before ++ [last] := by
  rw [lines_append_of_ended file.start, Lib.lines_open file.inner file.nonempty]

lemma OpenEnd.lines_ended :
    lines '\n' (before ++ last ++ ['\n']) = lines '\n' before ++ [last ++ ['\n']] := by
  rw [append_assoc, lines_append_of_ended file.start, lines_append file.inner]
  rfl

lemma OpenEnd.reads_before :
    reads room positive before = lines '\n' before := by
  refine chunks_eq_lines positive fun line member => file.fit line ?_
  rw [file.lines_ended]
  exact mem_append_left _ member

lemma OpenEnd.reads_open :
    reads room positive (before ++ last) = lines '\n' before ++ [last] := by
  rw [← file.lines_open]
  refine chunks_eq_lines positive fun line member => ?_
  have fit := file.fit
  rw [file.lines_ended] at fit
  rw [file.lines_open, mem_append, mem_singleton] at member
  obtain earlier | rfl := member
  · exact fit line (mem_append_left _ earlier)
  · have whole := fit (line ++ ['\n']) (mem_append_right _ mem_cons_self)
    rw [length_append] at whole
    omega

lemma OpenEnd.reads_ended :
    reads room positive (before ++ last ++ ['\n']) = lines '\n' before ++ [last ++ ['\n']] := by
  rw [← file.lines_ended]
  exact chunks_eq_lines positive file.fit

omit file

lemma toList_eq_iff {β : Type} {x y : Option β} : x.toList = y.toList ↔ x = y := by
  cases x <;> cases y <;> simp

/-- The loaders that take each line by itself. -/
lemma OpenEnd.filterMap_reads_iff (file : OpenEnd room before last) {β : Type}
    (entry : Text → Option β) :
    (reads room positive (before ++ last)).filterMap entry =
        (reads room positive (before ++ last ++ ['\n'])).filterMap entry ↔
      entry last = entry (last ++ ['\n']) := by
  rw [file.reads_open, file.reads_ended, filterMap_append, filterMap_append, append_cancel_left_eq]
  have single : ∀ line, [line].filterMap entry = (entry line).toList := by
    intro line
    cases found : entry line <;> simp [found]
  rw [single, single, toList_eq_iff]

end

section

variable {last : Text}

lemma cutLine_comment (comment : bytes.head? = some '#') : cutLine bytes = none := by
  cases bytes with
  | nil => cases comment
  | cons c text =>
    obtain rfl := Option.some.inj comment
    exact if_pos (.inr rfl)

lemma cutLine_ignored (ignored : Ignored last) : cutLine last = cutLine (last ++ ['\n']) := by
  obtain comment | zero := ignored
  · rw [cutLine_comment comment, cutLine_comment]
    rw [head?_append, comment]
    rfl
  · have same : cString (last ++ ['\n']) = cString last := takeWhile_ne_concat_of_mem zero '\n'
    unfold cutLine
    rw [same]

lemma cutLine_ended (nonempty : last ≠ []) (read : ¬ Ignored last) :
    cutLine (last ++ ['\n']) = some last := by
  obtain ⟨plain, clean⟩ := not_or.mp read
  have whole : cString (last ++ ['\n']) = last ++ ['\n'] :=
    takeWhile_ne_of_notMem (by simpa using clean)
  have head : (last ++ ['\n']).head? = last.head? := head?_append_of_ne_nil _ nonempty
  have positive := length_pos_of_ne_nil nonempty
  unfold cutLine
  dsimp only
  rw [whole, head, dropLast_concat, length_append, length_singleton]
  exact if_neg (not_or.mpr ⟨by omega, plain⟩)

lemma cutLine_open (read : ¬ Ignored last) :
    cutLine last = if last.length ≤ 1 then none else some last.dropLast := by
  obtain ⟨plain, clean⟩ := not_or.mp read
  have whole : cString last = last := takeWhile_ne_of_notMem clean
  unfold cutLine
  rw [whole]
  by_cases short : last.length ≤ 1
  · rw [if_pos (.inl short), if_pos short]
  · rw [if_neg (not_or.mpr ⟨short, plain⟩), if_neg short]

/-- A loader that makes nothing of an empty line sees the last one without its last
character. -/
lemma bind_cutLine_open (read : ¬ Ignored last) (empty : parse [] = none) :
    (cutLine last).bind parse = parse last.dropLast := by
  rw [cutLine_open read]
  by_cases short : last.length ≤ 1
  · have cut : last.dropLast = [] := by
      rw [← length_eq_zero_iff, length_dropLast]
      omega
    rw [if_pos short, cut, empty]
    rfl
  · rw [if_neg short]
    rfl

/-- So the newline matters to it unless the line is ignored, or has nothing different to
say without its last character. -/
lemma bind_cutLine_iff (nonempty : last ≠ []) (empty : parse [] = none) :
    (cutLine last).bind parse = (cutLine (last ++ ['\n'])).bind parse ↔
      Ignored last ∨ parse last.dropLast = parse last := by
  by_cases ignored : Ignored last
  · rw [cutLine_ignored ignored]
    exact iff_of_true rfl (.inl ignored)
  · rw [cutLine_ended nonempty ignored, bind_cutLine_open ignored empty, or_iff_right ignored]
    rfl

end

section

variable {delimiter : Char}

lemma length_splitOn (text : Text) :
    (text.splitOn delimiter).length = text.count delimiter + 1 := by
  induction text with
  | nil => rfl
  | cons c text ih =>
    rw [splitOn_cons_eq_if_modifyHead, count_cons]
    split
    · next ends => rw [length_cons, ih]
    · next inside => rw [length_modifyHead, ih]

variable (delimiter) in
lemma length_tokens_le (text : Text) :
    (tokens delimiter text).length ≤ text.count delimiter + 1 := by
  rw [← length_splitOn]
  exact length_filter_le _ _

lemma tokens_concat_delimiter :
    tokens delimiter (text ++ [delimiter]) = tokens delimiter text := by
  unfold tokens
  rw [splitOn_append_cons_self, filter_append, splitOn_nil]
  exact append_nil _

lemma tokens_concat (inside : c ≠ delimiter) :
    ∃ firsts piece, tokens delimiter text = firsts ++ (if piece = [] then [] else [piece]) ∧
      tokens delimiter (text ++ [c]) = firsts ++ [piece ++ [c]] := by
  obtain ⟨firsts, piece, open_, more⟩ := splitOn_concat inside text
  unfold tokens
  refine ⟨firsts.filter (· ≠ []), piece, ?_, ?_⟩
  · rw [open_, filter_append]
    by_cases empty : piece = [] <;> simp [empty]
  · rw [more, filter_append]
    simp

end

variable {before last : Text}

lemma risky_iff (file : OpenEnd 127 before last) :
    (loadRiskDomainFileFd loads (before ++ last)).2 =
        (loadRiskDomainFileFd loads (before ++ last ++ ['\n'])).2 ↔ Ignored last := by
  refine (file.filterMap_reads_iff cutLine).trans ⟨fun same => ?_, cutLine_ignored⟩
  by_contra read
  rw [cutLine_ended file.nonempty read, cutLine_open read] at same
  split at same
  · cases same
  · have positive := length_pos_of_ne_nil file.nonempty
    have length := congrArg List.length (Option.some.inj same)
    rw [length_dropLast] at length
    omega

/-- The hash of a line. -/
def ja4Hash (line : Text) : Option Text :=
  if (line.takeWhile (· ≠ ',')).length = 36 then some (line.takeWhile (· ≠ ',')) else none

lemma ja4Line_eq : ja4Line bytes = (cutLine bytes).bind ja4Hash := by
  unfold ja4Line
  cases cutLine bytes <;> rfl

lemma ja4Hash_dropLast_iff (nonempty : last ≠ []) :
    ja4Hash last.dropLast = ja4Hash last ↔
      ',' ∈ last ∨ last.length ≠ 36 ∧ last.length ≠ 37 := by
  obtain ⟨text, c, rfl⟩ := (eq_nil_or_concat' last).resolve_left nonempty
  rw [dropLast_concat]
  unfold ja4Hash
  by_cases inside : ',' ∈ text
  · rw [takeWhile_ne_concat_of_mem inside]
    exact iff_of_true rfl (.inl (mem_append_left _ inside))
  rw [takeWhile_ne_of_notMem inside]
  by_cases ends : c = ','
  · subst ends
    rw [takeWhile_ne_append inside]
    exact iff_of_true rfl (.inl (mem_append_right _ mem_cons_self))
  · have absent : ',' ∉ text ++ [c] := by simp [inside, Ne.symm ends]
    rw [takeWhile_ne_of_notMem absent, or_iff_right absent, length_append, length_singleton]
    split
    · rw [if_neg (by omega)]
      exact iff_of_false (by simp) (by omega)
    · split
      · exact iff_of_false (by simp) (by omega)
      · exact iff_of_true rfl (by omega)

lemma ja4_iff (adds : Text → Bool) (file : OpenEnd 127 before last) :
    (loadMaliciousJa4FileFd adds (before ++ last)).2 =
        (loadMaliciousJa4FileFd adds (before ++ last ++ ['\n'])).2 ↔
      Ignored last ∨ ',' ∈ last ∨ last.length ≠ 36 ∧ last.length ≠ 37 := by
  apply (file.filterMap_reads_iff ja4Line).trans
  rw [ja4Line_eq, ja4Line_eq, bind_cutLine_iff file.nonempty (by rfl),
    ja4Hash_dropLast_iff file.nonempty]

lemma category_cut_iff (name piece : Text) (c : Char) :
    ((categoryId piece).map fun id => (name, id)) =
        ((categoryId (piece ++ [c])).map fun id => (name, id)) ↔
      ∀ other category, [name, piece ++ [c]] = [other, category] →
        categoryId category.dropLast = categoryId category := by
  have injective : Function.Injective fun id : Int => (name, id) :=
    fun _ _ same => (Prod.mk.inj same).2
  rw [(map_injective injective).eq_iff]
  refine ⟨fun same other category pair => ?_, fun all => ?_⟩
  · obtain ⟨rfl, rfl⟩ : name = other ∧ piece ++ [c] = category := by simpa using pair
    rw [dropLast_concat, same]
  · have same := all name (piece ++ [c]) rfl
    rwa [dropLast_concat] at same

lemma categoriesEntry_dropLast_iff (nonempty : last ≠ []) :
    categoriesEntry last.dropLast = categoriesEntry last ↔
      last.getLast? = some '\t' ∨ ∀ name category, tokens '\t' last = [name, category] →
        categoryId category.dropLast = categoryId category := by
  obtain ⟨text, c, rfl⟩ := (eq_nil_or_concat' last).resolve_left nonempty
  rw [dropLast_concat, getLast?_concat]
  unfold categoriesEntry
  by_cases ends : c = '\t'
  · subst ends
    rw [tokens_concat_delimiter]
    exact iff_of_true rfl (.inl rfl)
  rw [or_iff_right (fun same => ends (Option.some.inj same))]
  obtain ⟨firsts, piece, cut, whole⟩ := tokens_concat ends
  rw [cut, whole]
  -- only the second token counts, so only two tokens can tell
  by_cases empty : piece = []
  · rw [if_pos empty, append_nil]
    rcases firsts with _ | ⟨name, _ | ⟨category, rest⟩⟩
    · exact iff_of_true rfl (by simp)
    · subst empty
      exact category_cut_iff name [] c
    · exact iff_of_true (by cases rest <;> rfl) (by simp)
  · rw [if_neg empty]
    rcases firsts with _ | ⟨name, _ | ⟨category, rest⟩⟩
    · exact iff_of_true rfl (by simp)
    · exact category_cut_iff name piece c
    · exact iff_of_true rfl (by simp)

lemma categories_iff (loads : Text × Int → Bool) (file : OpenEnd 511 before last) :
    (loadCategoriesFileFd loads (before ++ last)).2 =
        (loadCategoriesFileFd loads (before ++ last ++ ['\n'])).2 ↔
      Ignored last ∨ last.getLast? = some '\t' ∨
        ∀ name category, tokens '\t' last = [name, category] →
          categoryId category.dropLast = categoryId category := by
  refine (file.filterMap_reads_iff fun bytes => (cutLine bytes).bind categoriesEntry).trans ?_
  rw [bind_cutLine_iff file.nonempty (by rfl), categoriesEntry_dropLast_iff file.nonempty]

/-- The entry that a line of a configuration has. -/
def handed : ConfigLine → Option ConfigEntry
  | .entry e => some e
  | _ => none

lemma wellFormed_of_handed (entry : handed (parseConfig line) = some e) :
    WellFormed line ∧ (tokens ',' line).getLast? = some e.value := by
  have most := length_tokens_le ',' line
  unfold parseConfig at entry
  by_cases one : line.count ',' = 1
  · rw [if_pos one] at entry
    rcases pieces : tokens ',' line with _ | ⟨param, _ | ⟨value, _ | ⟨more, rest⟩⟩⟩
    · rw [pieces] at entry; cases entry
    · rw [pieces] at entry; cases entry
    · rw [pieces] at entry
      cases entry
      exact ⟨.inl ⟨one, by rw [pieces]; rfl⟩, rfl⟩
    · rw [pieces, one] at most
      simp only [length_cons] at most
      omega
  rw [if_neg one] at entry
  by_cases two : line.count ',' = 2
  · rw [if_pos two] at entry
    rcases pieces : tokens ',' line with _ | ⟨proto, _ | ⟨param, _ | ⟨value, _ | ⟨more, rest⟩⟩⟩⟩
    · rw [pieces] at entry; cases entry
    · rw [pieces] at entry; cases entry
    · rw [pieces] at entry; cases entry
    · rw [pieces] at entry
      cases entry
      exact ⟨.inr ⟨two, by rw [pieces]; rfl⟩, rfl⟩
    · rw [pieces, two] at most
      simp only [length_cons] at most
      omega
  · rw [if_neg two] at entry
    cases entry

lemma handed_of_wellFormed (formed : WellFormed line) : handed (parseConfig line) ≠ none := by
  unfold parseConfig
  obtain ⟨one, length⟩ | ⟨two, length⟩ := formed
  · obtain ⟨param, value, pieces⟩ := length_eq_two.mp length
    rw [if_pos one, pieces]
    exact some_ne_none _
  · obtain ⟨proto, param, value, pieces⟩ := length_eq_three.mp length
    rw [if_neg (by omega), if_pos two, pieces]
    exact some_ne_none _

lemma WellFormed.length_tokens (formed : WellFormed line) :
    (tokens ',' line).length = line.count ',' + 1 := by
  unfold WellFormed at formed
  omega

lemma handed_dropLast_iff (nonempty : last ≠ []) :
    handed (parseConfig last.dropLast) = handed (parseConfig last) ↔
      ¬ WellFormed last ∧ ¬ WellFormed last.dropLast := by
  obtain ⟨text, c, rfl⟩ := (eq_nil_or_concat' last).resolve_left nonempty
  rw [dropLast_concat]
  have none_of : ∀ {line : Text}, ¬ WellFormed line → handed (parseConfig line) = none := by
    intro line ill
    rw [eq_none_iff_forall_ne_some]
    exact fun e entry => ill (wellFormed_of_handed entry).1
  refine ⟨fun same => ?_, fun ill => by rw [none_of ill.1, none_of ill.2]⟩
  cases entry : handed (parseConfig text) with
  | none =>
    exact ⟨fun formed => handed_of_wellFormed formed (same.symm.trans entry),
      fun formed => handed_of_wellFormed formed entry⟩
  | some e =>
    -- both have the entry: its value would be the last token with and without `c`
    exfalso
    obtain ⟨formed, value⟩ := wellFormed_of_handed entry
    obtain ⟨formed', value'⟩ := wellFormed_of_handed (same.symm.trans entry)
    have length := formed.length_tokens
    have length' := formed'.length_tokens
    by_cases ends : c = ','
    · subst ends
      rw [tokens_concat_delimiter, count_append, length] at length'
      simp at length'
    · obtain ⟨firsts, piece, cut, whole⟩ := tokens_concat ends
      rw [whole, count_append, count_singleton] at length'
      rw [whole, getLast?_concat] at value'
      rw [cut] at length value
      by_cases empty : piece = []
      · have same : (if c == ',' then 1 else 0) = 0 := if_neg (by simpa using ends)
        rw [if_pos empty, append_nil] at length
        rw [same, length_append, length_singleton] at length'
        omega
      · rw [if_neg empty, getLast?_concat] at value
        have longer := congrArg List.length (Option.some.inj (value'.trans value.symm))
        rw [length_append, length_singleton] at longer
        omega

section

variable {σ : Type} (setConfig : σ → ConfigEntry → Int × σ)

lemma loadConfigLines_stop
    (entry : configLine bytes = .entry e) (failed : (setConfig s e).1 ≠ 0) :
    loadConfigLines setConfig s (bytes :: rest) =
      ((setConfig s e).1, [e], (setConfig s e).2) := by
  rw [loadConfigLines, entry]
  exact if_pos failed

lemma loadConfigLines_next (entry : configLine bytes = .entry e) (done : (setConfig s e).1 = 0) :
    loadConfigLines setConfig s (bytes :: rest) =
      ((loadConfigLines setConfig (setConfig s e).2 rest).1,
        e :: (loadConfigLines setConfig (setConfig s e).2 rest).2.1,
        (loadConfigLines setConfig (setConfig s e).2 rest).2.2) := by
  rw [loadConfigLines, entry]
  exact if_neg (not_not.mpr done)

/-- The lines after some others are read if these gave no error. -/
lemma loadConfigLines_append (s : σ) :
    (loadConfigLines setConfig s (first ++ more)).2.1 =
      (loadConfigLines setConfig s first).2.1 ++
        if (loadConfigLines setConfig s first).1 = 0 then
          (loadConfigLines setConfig (loadConfigLines setConfig s first).2.2 more).2.1
        else [] := by
  induction first generalizing s with
  | nil => rfl
  | cons bytes first ih =>
    cases line : configLine bytes with
    | passed =>
      rw [cons_append, loadConfigLines, loadConfigLines, line]
      exact ih s
    | malformed =>
      rw [cons_append, loadConfigLines, loadConfigLines, line]
      rfl
    | entry e =>
      by_cases done : (setConfig s e).1 = 0
      · rw [cons_append, loadConfigLines_next setConfig line done,
          loadConfigLines_next setConfig line done]
        exact congrArg (e :: ·) (ih _)
      · rw [cons_append, loadConfigLines_stop setConfig line done,
          loadConfigLines_stop setConfig line done, if_neg done]
        rfl

lemma loadConfigLines_single (s : σ) :
    (loadConfigLines setConfig s [bytes]).2.1 = (handed (configLine bytes)).toList := by
  rw [loadConfigLines]
  cases configLine bytes with
  | passed => rfl
  | malformed => rfl
  | entry e =>
    dsimp only
    split <;> rfl

lemma handed_configLine :
    handed (configLine bytes) = (cutLine bytes).bind fun line => handed (parseConfig line) := by
  unfold configLine
  cases cutLine bytes <;> rfl

lemma config_iff (s : σ) (file : OpenEnd 511 before last) :
    (loadConfigFileFd setConfig s (before ++ last)).2.1 =
        (loadConfigFileFd setConfig s (before ++ last ++ ['\n'])).2.1 ↔
      (loadConfigFileFd setConfig s before).1 ≠ 0 ∨ Ignored last ∨
        ¬ WellFormed last ∧ ¬ WellFormed last.dropLast := by
  unfold loadConfigFileFd
  rw [file.reads_open, file.reads_ended, file.reads_before, loadConfigLines_append,
    loadConfigLines_append, append_cancel_left_eq, loadConfigLines_single,
    loadConfigLines_single]
  by_cases stopped : (loadConfigLines setConfig s (lines '\n' before)).1 = 0
  · rw [if_pos stopped, if_pos stopped, or_iff_right (not_not.mpr stopped), toList_eq_iff,
      handed_configLine, handed_configLine, bind_cutLine_iff file.nonempty (by rfl),
      handed_dropLast_iff file.nonempty]
  · rw [if_neg stopped, if_neg stopped]
    exact iff_of_true rfl (.inl stopped)

end

/-- Where the newline at the end of a file makes no difference: for the risky domains,
the JA4 fingerprints, the categories and the configuration. -/
theorem last_newline_irrelevant_iff {σ : Type} (loads : Text → Bool) (adds : Text → Bool)
    (categories : Text × Int → Bool) (setConfig : σ → ConfigEntry → Int × σ) (s : σ)
    (before last : Text) :
    (OpenEnd 127 before last →
      ((loadRiskDomainFileFd loads (before ++ last)).2 =
          (loadRiskDomainFileFd loads (before ++ last ++ ['\n'])).2 ↔ Ignored last) ∧
      ((loadMaliciousJa4FileFd adds (before ++ last)).2 =
          (loadMaliciousJa4FileFd adds (before ++ last ++ ['\n'])).2 ↔
        Ignored last ∨ ',' ∈ last ∨ last.length ≠ 36 ∧ last.length ≠ 37)) ∧
    (OpenEnd 511 before last →
      ((loadCategoriesFileFd categories (before ++ last)).2 =
          (loadCategoriesFileFd categories (before ++ last ++ ['\n'])).2 ↔
        Ignored last ∨ last.getLast? = some '\t' ∨
          ∀ name category, tokens '\t' last = [name, category] →
            categoryId category.dropLast = categoryId category) ∧
      ((loadConfigFileFd setConfig s (before ++ last)).2.1 =
          (loadConfigFileFd setConfig s (before ++ last ++ ['\n'])).2.1 ↔
        (loadConfigFileFd setConfig s before).1 ≠ 0 ∨ Ignored last ∨
          ¬ WellFormed last ∧ ¬ WellFormed last.dropLast)) :=
  ⟨fun file => ⟨risky_iff file, ja4_iff adds file⟩,
    fun file => ⟨categories_iff categories file, config_iff setConfig s file⟩⟩

/-- A comment at the end of a file. -/
theorem last_comment_irrelevant :
    (loadRiskDomainFileFd (fun _ => true) (['a', '\n'] ++ ['#', 'b'])).2 =
        (loadRiskDomainFileFd (fun _ => true) (['a', '\n'] ++ ['#', 'b'] ++ ['\n'])).2 ∧
      (loadConfigFileFd (fun _ _ => (0, ())) () (['a', '\n'] ++ ['#', 'b'])).2.1 =
        (loadConfigFileFd (fun _ _ => (0, ())) () (['a', '\n'] ++ ['#', 'b'] ++ ['\n'])).2.1 :=
  have both := last_newline_irrelevant_iff (fun _ => true) (fun _ => true) (fun _ => true)
    (fun _ _ => (0, ())) () ['a', '\n'] ['#', 'b']
  ⟨(both.1 ⟨by decide, by decide, by decide, by decide⟩).1.mpr (.inl rfl),
    (both.2 ⟨by decide, by decide, by decide, by decide⟩).2.mpr (.inr (.inl (.inl rfl)))⟩

/-- Each loader loses the last character of a last line without a newline. -/
theorem last_character_lost :
    ((loadRiskDomainFileFd (fun _ => true) ['a', 'b']).2 = [['a']] ∧
      (loadRiskDomainFileFd (fun _ => true) ['a', 'b', '\n']).2 = [['a', 'b']]) ∧
    ((loadMaliciousJa4FileFd (fun _ => true) (List.replicate 36 'a')).2 = [] ∧
      (loadMaliciousJa4FileFd (fun _ => true) (List.replicate 36 'a' ++ ['\n'])).2 =
        [List.replicate 36 'a']) ∧
    ((loadCategoriesFileFd (fun _ => true) ['a', '\t', '1', '2']).2 = [(['a'], 1)] ∧
      (loadCategoriesFileFd (fun _ => true) ['a', '\t', '1', '2', '\n']).2 = [(['a'], 12)]) ∧
    ((loadConfigFileFd (fun _ _ => (0, ())) () ['a', ',', '1', '2']).2.1 =
        [⟨none, ['a'], ['1']⟩] ∧
      (loadConfigFileFd (fun _ _ => (0, ())) () ['a', ',', '1', '2', '\n']).2.1 =
        [⟨none, ['a'], ['1', '2']⟩]) := by
  decide +kernel

end Ndpi.Guarantees.LastLine
