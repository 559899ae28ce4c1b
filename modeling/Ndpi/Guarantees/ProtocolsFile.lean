import Ndpi.Source.FileLoaders

/-!
# The rules of a protocols file

A line is put together from chunks, but the third and each later one is stored at the
length of a chunk and not at the end of the line; and a last line without its end
counts as the end of the file. The rules of a file arrive unless one of them runs
into this.
-/
namespace Ndpi.Guarantees.ProtocolsFile
open Lib Source.CustomRules Source.FileLoaders List Option

/-- A line without its terminator and one carriage return before it. -/
def stripLine (line : Text) : Text :=
  let body := if line.getLast? = some '\n' then line.dropLast else line
  if body.getLast? = some '\r' then body.dropLast else body

/-- The rule of a line, unless it is empty or a comment. -/
def ruleOf (line : Text) : Option Text :=
  if stripLine line = [] ∨ line.head? = some '#' then none else some (stripLine line)

def ruleLines (content : Text) : List Text := (lines '\n' content).filterMap ruleOf

/-- The size of the buffer after a line with its terminator. -/
def grown (bufferLen : Nat) (line : Text) : Nat :=
  if line.length < bufferLen then bufferLen
  else bufferLen + 1024 * ((line.length - bufferLen) / 1023 + 1)

/-- Each line with a rule has no zero byte, has its terminator, and is at most 1022
bytes longer than the buffer that the lines before have left. -/
def RulesFit : Nat → List Text → Prop
  | _, [] => True
  | bufferLen, line :: rest =>
    (ruleOf line ≠ none →
      '\x00' ∉ line ∧ line.getLast? = some '\n' ∧ line.length ≤ bufferLen + 1022) ∧
    RulesFit (grown bufferLen line) rest

instance decidableRulesFit : (bufferLen : Nat) → (content : List Text) →
    Decidable (RulesFit bufferLen content)
  | _, [] => isTrue trivial
  | bufferLen, line :: rest =>
    have := decidableRulesFit (grown bufferLen line) rest
    inferInstanceAs (Decidable (_ ∧ _))

section

variable {granted : Nat → Bool} (memory : ∀ size, granted size = true)
  {bufferLen lineLen place : Nat}

/-- A chunk that ends a line. -/
lemma readRule_last (large : 1 < lineLen)
    (inner : '\n' ∉ body) (clean : '\x00' ∉ body) (fits : body.length < lineLen - 1) :
    readRule granted bufferLen lineLen large buffer place (body ++ '\n' :: rest) =
      .line (buffer.take place ++ (body ++ ['\n'])) bufferLen rest := by
  have read : fgets lineLen (body ++ '\n' :: rest) = some (body ++ ['\n'], rest) := by
    unfold fgets
    rw [if_neg (by simp), chunk_line inner rest fits]
  have whole : cString (body ++ ['\n']) = body ++ ['\n'] :=
    takeWhile_ne_of_notMem (by simpa using clean)
  rw [readRule]
  split
  · next none => rw [read] at none; cases none
  · next bytes more chunk =>
    rw [read] at chunk
    cases chunk
    rw [whole, if_pos (.inr getLast?_concat)]

include memory in
/-- A chunk that fills its room. -/
lemma readRule_full (large : 1 < lineLen) (some : stream ≠ [])
    (inner : '\n' ∉ stream.take (lineLen - 1)) (clean : '\x00' ∉ stream.take (lineLen - 1)) :
    readRule granted bufferLen lineLen large buffer place stream =
      readRule granted (bufferLen + 1024) 1024 (by decide)
        (buffer.take place ++ stream.take (lineLen - 1)) (stream.take (lineLen - 1)).length
        (stream.drop (lineLen - 1)) := by
  have read : fgets lineLen stream =
      Option.some (stream.take (lineLen - 1), stream.drop (lineLen - 1)) := by
    unfold fgets
    rw [if_neg some, chunk_full inner]
  have whole : cString (stream.take (lineLen - 1)) = stream.take (lineLen - 1) :=
    takeWhile_ne_of_notMem clean
  rw [readRule]
  split
  · next none => rw [read] at none; cases none
  · next bytes more chunk =>
    rw [read] at chunk
    cases chunk
    rw [whole, if_neg, if_pos (memory _)]
    rintro (empty | ended)
    · cases stream with
      | nil => exact some rfl
      | cons c stream =>
        obtain ⟨room, length⟩ : ∃ room, lineLen - 1 = room + 1 := ⟨lineLen - 2, by omega⟩
        rw [length] at empty
        cases empty
    · exact inner (mem_of_getLast? ended)

include memory in
/-- A chunk that does not reach the end of its line. -/
lemma readRule_more (bufferLen : Nat) {lineLen : Nat} (place : Nat) (large : 1 < lineLen)
    (inner : '\n' ∉ body) (clean : '\x00' ∉ body) (long : lineLen - 1 ≤ body.length) :
    readRule granted bufferLen lineLen large buffer place (body ++ '\n' :: rest) =
      readRule granted (bufferLen + 1024) 1024 (by decide)
        (buffer.take place ++ body.take (lineLen - 1)) (lineLen - 1)
        (body.drop (lineLen - 1) ++ '\n' :: rest) := by
  have first : (body ++ '\n' :: rest).take (lineLen - 1) = body.take (lineLen - 1) :=
    take_append_of_le_length long
  rw [readRule_full memory large (by simp), first, drop_append_of_le_length long,
    length_take_of_le long]
  · rw [first]
    exact fun member => inner (mem_of_mem_take member)
  · rw [first]
    exact fun member => clean (mem_of_mem_take member)

include memory in
/-- What the buffer holds when a line from its continuation on is read: the whole line
if one chunk more is enough, and otherwise a shorter text with the same beginning. -/
lemma readRule_continued (bufferLen : Nat) {place : Nat} (rest : Text) (inner : '\n' ∉ body)
    (clean : '\x00' ∉ body) (positive : 0 < place) (holds : place ≤ buffer.length) :
    ∃ text, readRule granted bufferLen 1024 (by decide) buffer place (body ++ '\n' :: rest) =
        .line text (bufferLen + 1024 * (body.length / 1023)) rest ∧
      text.head? = buffer.head? ∧
      (body.length < 1023 → text = buffer.take place ++ (body ++ ['\n'])) ∧
      (1023 ≤ body.length → 1023 < text.length ∧ text.length ≤ body.length + 1) := by
  induction length : body.length using Nat.strongRecOn generalizing bufferLen place buffer body with
  | ind n ih =>
    subst length
    have head : ∀ more : Text, (buffer.take place ++ more).head? = buffer.head? := by
      intro more
      cases buffer with
      | nil => exact absurd holds (Nat.not_le.mpr positive)
      | cons c buffer =>
        obtain ⟨k, rfl⟩ := Nat.exists_eq_succ_of_ne_zero (Nat.pos_iff_ne_zero.mp positive)
        rfl
    by_cases short : body.length < 1023
    · refine ⟨_, ?_, head (body ++ ['\n']), fun _ => rfl, fun long => by omega⟩
      rw [readRule_last (by decide) inner clean short, Nat.div_eq_of_lt short, Nat.mul_zero,
        Nat.add_zero]
    · have long : 1023 ≤ body.length := Nat.le_of_not_lt short
      have left : (body.drop 1023).length = body.length - 1023 := length_drop
      -- the chunk is stored at `place`, but the next one goes to 1023
      have stored : (buffer.take place ++ body.take 1023).length = place + 1023 := by
        rw [length_append, length_take_of_le holds, length_take_of_le long]
      obtain ⟨text, read, same, final, further⟩ := ih (body.drop 1023).length (by omega)
        (bufferLen + 1024) (fun member => inner (mem_of_mem_drop member))
        (fun member => clean (mem_of_mem_drop member)) (show 0 < 1023 by decide)
        (show 1023 ≤ (buffer.take place ++ body.take 1023).length by omega) rfl
      refine ⟨text, ?_, same.trans (head _), fun fits => absurd fits short, fun _ => ?_⟩
      · rw [readRule_more memory bufferLen place (by decide) inner clean long, read]
        have size : bufferLen + 1024 + 1024 * ((body.drop 1023).length / 1023) =
            bufferLen + 1024 * (body.length / 1023) := by omega
        rw [size]
      · by_cases last : (body.drop 1023).length < 1023
        · rw [final last]
          simp only [length_append, length_take, length_singleton, stored]
          omega
        · have bounds := further (Nat.le_of_not_lt last)
          omega

include memory in
/-- A line that has its terminator. -/
lemma readRule_ended {bufferLen : Nat} (large : 1024 ≤ bufferLen)
    (inner : '\n' ∉ body) (clean : '\x00' ∉ body) :
    ∃ text, readRule granted bufferLen bufferLen (by omega) [] 0 (body ++ '\n' :: rest) =
        .line text (grown bufferLen (body ++ ['\n'])) rest ∧
      text.head? = (body ++ ['\n']).head? ∧
      (body.length < bufferLen + 1022 → text = body ++ ['\n']) ∧
      (bufferLen + 1022 ≤ body.length → 1023 < text.length ∧ text.length + 1022 ≤ body.length) := by
  unfold grown
  rw [length_append, length_singleton]
  by_cases short : body.length < bufferLen - 1
  · refine ⟨body ++ ['\n'], ?_, rfl, fun _ => rfl, fun long => by omega⟩
    rw [readRule_last (by omega) inner clean short, if_pos (by omega), take_nil, nil_append]
  · have long : bufferLen - 1 ≤ body.length := Nat.le_of_not_lt short
    have left : (body.drop (bufferLen - 1)).length = body.length - (bufferLen - 1) := length_drop
    have taken : (body.take (bufferLen - 1)).length = bufferLen - 1 := length_take_of_le long
    obtain ⟨text, read, same, final, further⟩ := readRule_continued memory
      (bufferLen + 1024) rest (fun member => inner (mem_of_mem_drop member))
      (fun member => clean (mem_of_mem_drop member)) (show 0 < bufferLen - 1 by omega)
      (Nat.le_of_eq taken.symm)
    refine ⟨text, ?_, ?_, fun fits => ?_, fun far => ?_⟩
    · rw [readRule_more memory bufferLen 0 (by omega) inner clean long, take_nil,
        nil_append, read, if_neg (by omega)]
      have size : bufferLen + 1024 + 1024 * ((body.drop (bufferLen - 1)).length / 1023) =
          bufferLen + 1024 * ((body.length + 1 - bufferLen) / 1023 + 1) := by omega
      rw [size]
    · rw [same]
      cases body with
      | nil => exact absurd long (by rw [length_nil]; omega)
      | cons c body =>
        obtain ⟨k, next⟩ : ∃ k, bufferLen - 1 = k + 1 := ⟨bufferLen - 2, by omega⟩
        rw [next]
        rfl
    · rw [final (by omega), take_of_length_le (Nat.le_of_eq taken), ← append_assoc,
        take_append_drop]
    · have bounds := further (by omega)
      omega

include memory in
/-- A last line that lacks it is read as the end of the file. -/
lemma readRule_open (large : 1 < lineLen) (inner : '\n' ∉ stream) (clean : '\x00' ∉ stream) :
    readRule granted bufferLen lineLen large buffer place stream = .eof := by
  induction length : stream.length using Nat.strongRecOn generalizing bufferLen lineLen place buffer
    stream with
  | ind n ih =>
    by_cases empty : stream = []
    · subst empty
      rw [readRule]
      split
      · rfl
      · next bytes more chunk => cases chunk
    · have positive := length_pos_of_ne_nil empty
      rw [readRule_full memory large empty (fun member => inner (mem_of_mem_take member))
        (fun member => clean (mem_of_mem_take member))]
      refine ih (stream.drop (lineLen - 1)).length ?_ (by decide)
        (fun member => inner (mem_of_mem_drop member))
        (fun member => clean (mem_of_mem_drop member)) rfl
      rw [length_drop]
      omega

/-- No text with a zero byte is ever in the buffer. -/
lemma readRule_clean {bufferLen lineLen place after : Nat} {large : 1 < lineLen}
    {buffer stream line rest : Text} (clean : '\x00' ∉ buffer)
    (read : readRule granted bufferLen lineLen large buffer place stream = .line line after rest) :
    '\x00' ∉ line := by
  induction length : stream.length using Nat.strongRecOn generalizing bufferLen lineLen place buffer
    stream with
  | ind n ih =>
    subst length
    rw [readRule] at read
    split at read
    · cases read
    · next bytes more chunk =>
      have stored : '\x00' ∉ buffer.take place ++ cString bytes := by
        rw [mem_append, not_or]
        exact ⟨fun member => clean (mem_of_mem_take member), notMem_takeWhile_ne bytes⟩
      dsimp only at read
      split at read
      · cases read
        exact stored
      · split at read
        · exact ih more.length (fgets_shorter large chunk) stored read rfl
        · cases read

end

lemma stripLine_ended :
    stripLine (body ++ ['\n']) = if body.getLast? = some '\r' then body.dropLast else body := by
  unfold stripLine
  rw [if_pos getLast?_concat, dropLast_concat]

lemma length_ite_dropLast (p : Prop) [Decidable p] (text : Text) :
    (if p then text.dropLast else text).length ≤ text.length ∧
      text.length ≤ (if p then text.dropLast else text).length + 1 := by
  split
  · rw [length_dropLast]
    omega
  · omega

lemma stripLine_length (line : Text) : line.length ≤ (stripLine line).length + 2 := by
  have feed := (length_ite_dropLast (line.getLast? = some '\n') line).2
  have carriage := (length_ite_dropLast
    ((if line.getLast? = some '\n' then line.dropLast else line).getLast? = some '\r')
    (if line.getLast? = some '\n' then line.dropLast else line)).2
  exact Nat.le_trans feed (Nat.add_le_add_right carriage 1)

/-- Only line ends are removed from a line. -/
lemma mem_stripLine (member : c ∈ line) (feed : c ≠ '\n') (carriage : c ≠ '\r') :
    c ∈ stripLine line := by
  have inside : ∀ {text : Text} {last : Char}, c ∈ text → c ≠ last →
      c ∈ (if text.getLast? = some last then text.dropLast else text) := by
    intro text last present other
    split
    · next ends =>
      obtain ⟨start, rfl⟩ := getLast?_eq_some_iff.mp ends
      rw [dropLast_concat]
      simpa [other] using present
    · exact present
  exact inside (inside member feed) carriage

lemma ruleOf_eq_some (rule : ruleOf line = some text) :
    stripLine line = text ∧ text ≠ [] ∧ line.head? ≠ some '#' := by
  unfold ruleOf at rule
  split at rule
  · cases rule
  · next neither =>
    cases rule
    exact ⟨rfl, fun empty => neither (.inl empty), fun comment => neither (.inr comment)⟩

lemma ruleOf_eq_none (rule : ruleOf line = none) :
    stripLine line = [] ∨ line.head? = some '#' := by
  by_contra neither
  unfold ruleOf at rule
  rw [if_neg neither] at rule
  cases rule

/-- A line with its terminator, as it stands in the buffer. -/
lemma ruleText_ended : ruleText (body ++ ['\n']) = ruleOf (body ++ ['\n']) := by
  unfold ruleText ruleOf
  rw [stripLine_ended, dropLast_concat]
  by_cases empty : body = []
  · subst empty
    rfl
  · have long : ¬ (body ++ ['\n']).length ≤ 1 := by
      have positive := length_pos_of_ne_nil empty
      rw [length_append, length_singleton]
      omega
    by_cases comment : (body ++ ['\n']).head? = some '#'
    · rw [if_pos (Or.inr comment), if_pos (Or.inr comment)]
    · rw [if_neg (not_or.mpr ⟨long, comment⟩)]
      by_cases blank : (if body.getLast? = some '\r' then body.dropLast else body) = []
      · rw [if_pos (Or.inl blank)]
        exact if_pos blank
      · rw [if_neg (not_or.mpr ⟨blank, comment⟩)]
        exact if_neg blank

lemma ruleText_comment (comment : buffer.head? = some '#') :
    ruleText buffer = none := if_pos (.inr comment)

/-- A long text in the buffer is taken for a rule. -/
lemma ruleText_long (long : 1023 < buffer.length) (plain : buffer.head? ≠ some '#') :
    ∃ text, ruleText buffer = some text ∧ text.length < buffer.length := by
  unfold ruleText
  rw [if_neg (not_or.mpr ⟨by omega, plain⟩)]
  have bounds := length_ite_dropLast (buffer.dropLast.getLast? = some '\r') buffer.dropLast
  rw [length_dropLast] at bounds
  refine ⟨_, if_neg fun empty => ?_, by omega⟩
  rw [empty, length_nil] at bounds
  omega

lemma ruleText_clean (clean : '\x00' ∉ buffer) (rule : ruleText buffer = some text) :
    '\x00' ∉ text := by
  have inside : '\x00' ∉ (if buffer.dropLast.getLast? = some '\r' then
      buffer.dropLast.dropLast else buffer.dropLast) := by
    split
    · exact fun member => clean (dropLast_subset _ (dropLast_subset _ member))
    · exact fun member => clean (dropLast_subset _ member)
  unfold ruleText at rule
  by_cases passed : buffer.length ≤ 1 ∨ buffer.head? = some '#'
  · rw [if_pos passed] at rule
    cases rule
  · rw [if_neg passed] at rule
    rw [ite_none_left_eq_some] at rule
    rw [← Option.some.inj rule.2]
    exact inside

variable {granted : Nat → Bool} {bufferLen : Nat}

lemma loadRules_clean {large : 1 < bufferLen} {stream text : Text}
    (handed : text ∈ (loadRules granted bufferLen large stream).2) : '\x00' ∉ text := by
  induction length : stream.length using Nat.strongRecOn generalizing bufferLen stream with
  | ind n ih =>
    subst length
    rw [loadRules] at handed
    split at handed
    · cases handed
    · cases handed
    · next buffer after rest read =>
      rw [mem_append, mem_toList] at handed
      obtain rule | later := handed
      · exact ruleText_clean (readRule_clean (by simp) read) rule
      · exact ih rest.length (readRule_line read).2 later rfl

lemma loadRules_eof (read : readRule granted bufferLen bufferLen large [] 0 stream = .eof) :
    loadRules granted bufferLen large stream = (0, []) := by
  rw [loadRules]
  split
  · rfl
  · next failed => rw [read] at failed; cases failed
  · next line => rw [read] at line; cases line

lemma loadRules_line {bufferLen after : Nat} {large : 1 < bufferLen} {stream buffer rest : Text}
    (read : readRule granted bufferLen bufferLen large [] 0 stream = .line buffer after rest) :
    (loadRules granted bufferLen large stream).2 = (ruleText buffer).toList ++
      (loadRules granted after (Nat.lt_of_lt_of_le large (readRule_line read).1) rest).2 := by
  rw [loadRules]
  split
  · next ended => rw [read] at ended; cases ended
  · next failed => rw [read] at failed; cases failed
  · next line =>
    rw [read] at line
    cases line
    rfl

variable (memory : ∀ size, granted size = true)

include memory in
/-- Without zero bytes the rules arrive exactly if they fit. -/
lemma loadRules_iff (large : 1024 ≤ bufferLen) {content : Text} (clean : '\x00' ∉ content) :
    (loadRules granted bufferLen (by omega) content).2 = ruleLines content ↔
      RulesFit bufferLen (lines '\n' content) := by
  unfold ruleLines
  induction content using lines_induction '\n' generalizing bufferLen with
  | empty =>
    rw [loadRules_eof (readRule_open memory _ (by simp) (by simp))]
    exact iff_of_true rfl trivial
  | unended line inner some =>
    rw [loadRules_eof (readRule_open memory _ inner clean), lines_open inner some]
    have open_ : line.getLast? ≠ Option.some '\n' := fun ended => inner (mem_of_getLast? ended)
    cases rule : ruleOf line with
    | none => simp [RulesFit, rule]
    | some text => simp [RulesFit, rule, open_]
  | ended line text inner ih =>
    rw [mem_append, mem_cons, not_or, not_or] at clean
    obtain ⟨buffer, read, head, whole, mangled⟩ := readRule_ended memory large inner clean.1
    have grows : 1024 ≤ grown bufferLen (line ++ ['\n']) := by
      unfold grown
      split <;> omega
    have later := ih grows clean.2.2
    rw [loadRules_line read, lines_append inner, RulesFit, ← later, filterMap_cons]
    by_cases fits : line.length < bufferLen + 1022
    · have met : ruleOf (line ++ ['\n']) ≠ none → '\x00' ∉ line ++ ['\n'] ∧
          (line ++ ['\n']).getLast? = some '\n' ∧
          (line ++ ['\n']).length ≤ bufferLen + 1022 := by
        refine fun _ => ⟨by simpa using clean.1, getLast?_concat, ?_⟩
        rw [length_append, length_singleton]
        omega
      have taken : ruleText buffer = ruleOf (line ++ ['\n']) := by rw [whole fits, ruleText_ended]
      rw [taken, and_iff_right met]
      cases ruleOf (line ++ ['\n']) with
      | none => rfl
      | some rule => exact cons_inj_right rule
    · obtain ⟨least, most⟩ := mangled (Nat.le_of_not_lt fits)
      cases rule : ruleOf (line ++ ['\n']) with
      | none =>
        have comment : (line ++ ['\n']).head? = some '#' := by
          refine (ruleOf_eq_none rule).resolve_left fun blank => ?_
          have length := stripLine_length (line ++ ['\n'])
          rw [blank, length_append, length_nil] at length
          omega
        rw [ruleText_comment (head.trans comment)]
        exact (and_iff_right fun some => absurd rfl some).symm
      | some text =>
        obtain ⟨strip, -, plain⟩ := ruleOf_eq_some rule
        obtain ⟨wrong, taken, shorter⟩ := ruleText_long least (head.symm ▸ plain)
        rw [taken]
        refine iff_of_false (fun same => ?_) (fun fit => ?_)
        · have equal : wrong = text := (List.cons.inj same).1
          have length := stripLine_length (line ++ ['\n'])
          rw [strip, ← equal, length_append, length_singleton] at length
          omega
        · have short := (fit.1 (some_ne_none _)).2.2
          rw [length_append, length_singleton] at short
          omega

lemma rulesFit_clean (fit : RulesFit bufferLen content)
    (member : line ∈ content) (rule : ruleOf line ≠ none) : '\x00' ∉ line := by
  induction content generalizing bufferLen with
  | nil => cases member
  | cons first rest ih =>
    obtain here | later := mem_cons.mp member
    · subst here
      exact (fit.1 rule).1
    · exact ih fit.2 later

/-- The zero bytes of a content are in its rules and its comments. -/
lemma mem_line_of_mem (member : '\x00' ∈ content) :
    ∃ line ∈ lines '\n' content, '\x00' ∈ line ∧
      (line.head? = some '#' ∨ ∃ text, ruleOf line = some text ∧ '\x00' ∈ text) := by
  have whole : (lines '\n' content).flatten = content := lines_flatten content
  rw [← whole, mem_flatten] at member
  obtain ⟨line, listed, inside⟩ := member
  have kept : '\x00' ∈ stripLine line := mem_stripLine inside (by decide) (by decide)
  refine ⟨line, listed, inside, ?_⟩
  cases rule : ruleOf line with
  | none =>
    exact .inl ((ruleOf_eq_none rule).resolve_left fun blank => by rw [blank] at kept; cases kept)
  | some text => exact .inr ⟨text, rfl, (ruleOf_eq_some rule).1 ▸ kept⟩

/-- With memory at hand and no zero byte in a comment, the rules of a file are handed on
completely and in order exactly if each of them has a terminator and no zero byte, and
fits the room that the lines before it have left. -/
theorem rules_handed_iff {content : Text} (memory : ∀ size, granted size = true)
    (comments : ∀ line ∈ lines '\n' content, line.head? = some '#' → '\x00' ∉ line) :
    (loadProtocolsFileFd granted content).2 = ruleLines content ↔
      RulesFit 1024 (lines '\n' content) := by
  unfold loadProtocolsFileFd
  rw [if_pos (memory 1024)]
  by_cases clean : '\x00' ∈ content
  · obtain ⟨line, listed, inside, comment | ⟨text, rule, bad⟩⟩ := mem_line_of_mem clean
    · exact absurd inside (comments line listed comment)
    · refine iff_of_false (fun same => ?_) fun fit => ?_
      · have handed : text ∈ ruleLines content := mem_filterMap.mpr ⟨line, listed, rule⟩
        rw [← same] at handed
        exact loadRules_clean handed bad
      · exact rulesFit_clean fit listed (by rw [rule]; exact some_ne_none text) inside
  · exact loadRules_iff memory (le_refl _) clean

theorem comment_and_rules_handed :
    (loadProtocolsFileFd (fun _ => true) ['#', 'x', '\n', 'a', '@', 'b', '\r', '\n']).2 =
      [['a', '@', 'b']] :=
  ((rules_handed_iff (fun _ => rfl) (by decide)).mpr (by decide)).trans (by decide)

/-- A last rule without a newline never arrives, and of a rule of 2046 bytes only the
first 1023 do. -/
theorem open_and_long_rules_cut :
    (loadProtocolsFileFd (fun _ => true) ['a', '@', 'b']).2 = [] ∧
      ruleLines ['a', '@', 'b'] = [['a', '@', 'b']] ∧
      (loadProtocolsFileFd (fun _ => true) (List.replicate 2046 'a' ++ ['\n'])).2.map List.length =
        [1023] ∧
      (ruleLines (List.replicate 2046 'a' ++ ['\n'])).map List.length = [2046] := by
  decide +kernel

end Ndpi.Guarantees.ProtocolsFile
