import Mathlib.Data.List.Basic
import Mathlib.Data.List.TakeWhile

/-!
# Text read line by line

The lines of a text, each with the symbol that ends it, and the chunks in which a
reader with a buffer of limited room delivers them: a chunk ends after the symbol
`eol`, where the buffer is full, or at the end of the text.
-/
namespace Ndpi.Lib
open List

variable {α : Type} [DecidableEq α] (eol : α)

/-- The lines of a text. Only the last one may lack its end. -/
def lines : List α → List (List α)
  | [] => []
  | c :: text =>
    if c = eol then [c] :: lines text
    else
      match lines text with
      | [] => [[c]]
      | line :: rest => (c :: line) :: rest

/-- The next chunk, of at most `room` symbols, and the text after it. -/
def chunk : Nat → List α → List α × List α
  | 0, text => ([], text)
  | _ + 1, [] => ([], [])
  | room + 1, c :: text =>
    if c = eol then ([c], text) else (c :: (chunk room text).1, (chunk room text).2)

variable {eol}

lemma lines_cons_end (text : List α) : lines eol (eol :: text) = [eol] :: lines eol text := by
  rw [lines, if_pos rfl]

variable {line : List α}

/-- A line that is ended. -/
lemma lines_append (inner : eol ∉ line) (text : List α) :
    lines eol (line ++ eol :: text) = (line ++ [eol]) :: lines eol text := by
  induction line with
  | nil => exact lines_cons_end text
  | cons c line ih =>
    rw [mem_cons, not_or] at inner
    rw [cons_append, lines, if_neg (Ne.symm inner.1), ih inner.2]
    rfl

/-- A last line that is not. -/
lemma lines_open (inner : eol ∉ line) (some : line ≠ []) : lines eol line = [line] := by
  induction line with
  | nil => exact absurd rfl some
  | cons c line ih =>
    rw [mem_cons, not_or] at inner
    rw [lines, if_neg (Ne.symm inner.1)]
    by_cases last : line = []
    · subst last
      rfl
    · rw [ih inner.2 last]

variable (eol) in
/-- Every text is empty, an open line, or a line and a further text. -/
lemma lines_induction {motive : List α → Prop} (empty : motive [])
    (unended : ∀ line, eol ∉ line → line ≠ [] → motive line)
    (ended : ∀ line text, eol ∉ line → motive text → motive (line ++ eol :: text)) (text : List α) :
    motive text := by
  have whole : ∀ n, ∀ text : List α, text.length = n → motive text := by
    intro n
    induction n using Nat.strongRecOn with
    | ind n ih =>
      intro text length
      by_cases member : eol ∈ text
      · obtain ⟨line, rest, rfl, inner⟩ := eq_append_cons_of_mem member
        refine ended line rest inner (ih rest.length ?_ rest rfl)
        rw [← length, length_append, length_cons]
        omega
      · by_cases none : text = []
        · rw [none]
          exact empty
        · exact unended text member none
  exact whole text.length text rfl

/-- A text that stops with the end of a line. -/
lemma lines_append_of_ended {before : List α} (stops : before = [] ∨ before.getLast? = some eol)
    (text : List α) : lines eol (before ++ text) = lines eol before ++ lines eol text := by
  induction before using lines_induction eol with
  | empty => rfl
  | unended line inner some =>
    refine absurd (stops.resolve_left some) fun last => inner (mem_of_getLast? last)
  | ended line more inner ih =>
    have further : more = [] ∨ more.getLast? = some eol := by
      by_cases empty : more = []
      · exact .inl empty
      · right
        have last := stops.resolve_left (by simp)
        rwa [getLast?_append_of_ne_nil _ (cons_ne_nil _ _), getLast?_cons_of_ne_nil empty] at last
    rw [append_assoc, cons_append, lines_append inner, lines_append inner, ih further]
    rfl

lemma ne_nil_of_mem_lines {line : List α} (member : line ∈ lines eol text) : line ≠ [] := by
  induction text using lines_induction eol with
  | empty => cases member
  | unended other inner some =>
    rw [lines_open inner some, mem_singleton] at member
    rwa [member]
  | ended other text inner ih =>
    rw [lines_append inner, mem_cons] at member
    obtain rfl | later := member
    · exact concat_ne_nil _ _
    · exact ih later

lemma lines_flatten (text : List α) : (lines eol text).flatten = text := by
  induction text using lines_induction eol with
  | empty => rfl
  | unended line inner some => rw [lines_open inner some, flatten_singleton]
  | ended line text inner ih =>
    rw [lines_append inner, flatten_cons, ih, append_assoc]
    rfl

/-- A line that fits is delivered whole. -/
lemma chunk_line (inner : eol ∉ line) (text : List α) (fits : line.length < room) :
    chunk eol room (line ++ eol :: text) = (line ++ [eol], text) := by
  induction line generalizing room with
  | nil =>
    obtain ⟨room, rfl⟩ := Nat.exists_eq_succ_of_ne_zero (by omega : room ≠ 0)
    rw [nil_append, chunk, if_pos rfl]
    rfl
  | cons c line ih =>
    rw [mem_cons, not_or] at inner
    rw [length_cons] at fits
    obtain ⟨room, rfl⟩ := Nat.exists_eq_succ_of_ne_zero (by omega : room ≠ 0)
    rw [cons_append, chunk, if_neg (Ne.symm inner.1), ih inner.2 (by omega)]
    rfl

/-- Without an end of line in reach the buffer is filled. -/
lemma chunk_full (inner : eol ∉ text.take room) :
    chunk eol room text = (text.take room, text.drop room) := by
  induction room generalizing text with
  | zero => rw [chunk, take_zero, drop_zero]
  | succ room ih =>
    cases text with
    | nil => rw [chunk, take_nil, drop_nil]
    | cons c text =>
      rw [take_succ_cons, mem_cons, not_or] at inner
      rw [chunk, if_neg (Ne.symm inner.1), ih inner.2, take_succ_cons, drop_succ_cons]

variable (eol) in
lemma chunk_append (room : Nat) (text : List α) :
    (chunk eol room text).1 ++ (chunk eol room text).2 = text := by
  induction room generalizing text with
  | zero => rfl
  | succ room ih =>
    cases text with
    | nil => rfl
    | cons c text =>
      rw [chunk]
      split
      · rfl
      · exact congrArg (c :: ·) (ih text)

/-- There is progress as long as there is room. -/
lemma chunk_shorter {room : Nat} (positive : 0 < room) {text : List α} (some : text ≠ []) :
    (chunk eol room text).2.length < text.length := by
  obtain ⟨room, rfl⟩ := Nat.exists_eq_succ_of_ne_zero (Nat.pos_iff_ne_zero.mp positive)
  cases text with
  | nil => exact absurd rfl some
  | cons c text =>
    rw [chunk]
    split
    · exact Nat.lt_succ_self _
    · have length := congrArg List.length (chunk_append eol room text)
      rw [length_append] at length
      rw [length_cons]
      dsimp only
      omega

variable (eol) in
/-- All the chunks of a text. -/
def chunks (room : Nat) (positive : 0 < room) (text : List α) : List (List α) :=
  if _some : text ≠ [] then
    (chunk eol room text).1 :: chunks room positive (chunk eol room text).2
  else []
termination_by text.length
decreasing_by exact chunk_shorter positive _some

section

variable {room : Nat} (positive : 0 < room)

lemma chunks_nil : chunks eol room positive [] = [] := by
  rw [chunks, dif_neg (fun some => some rfl)]

lemma chunks_of_ne_nil {text : List α} (some : text ≠ []) :
    chunks eol room positive text =
      (chunk eol room text).1 :: chunks eol room positive (chunk eol room text).2 := by
  rw [chunks, dif_pos some]

lemma chunks_flatten (text : List α) : (chunks eol room positive text).flatten = text := by
  induction length : text.length using Nat.strongRecOn generalizing text with
  | ind n ih =>
    subst length
    by_cases some : text = []
    · rw [some, chunks_nil, flatten_nil]
    · rw [chunks_of_ne_nil positive some, flatten_cons,
        ih _ (chunk_shorter positive some) _ rfl, chunk_append]

lemma ne_nil_of_mem_chunks {text : List α} (member : piece ∈ chunks eol room positive text) :
    piece ≠ [] := by
  induction length : text.length using Nat.strongRecOn generalizing text with
  | ind n ih =>
    subst length
    by_cases some : text = []
    · rw [some, chunks_nil] at member
      cases member
    · have shorter := @chunk_shorter α _ eol room positive text some
      rw [chunks_of_ne_nil positive some, mem_cons] at member
      obtain rfl | later := member
      · intro empty
        have whole := chunk_append eol room text
        rw [empty, nil_append] at whole
        rw [whole] at shorter
        exact lt_irrefl _ shorter
      · exact ih _ shorter later rfl

/-- A line that is longer than the room is delivered piece by piece, without a part of
the text that follows it. -/
lemma chunks_append {line : List α} (inner : eol ∉ line) (text : List α) :
    chunks eol room positive (line ++ eol :: text) =
      chunks eol room positive (line ++ [eol]) ++ chunks eol room positive text := by
  have pieces : ∀ n, ∀ line : List α, line.length = n → eol ∉ line →
      chunks eol room positive (line ++ eol :: text) =
        chunks eol room positive (line ++ [eol]) ++ chunks eol room positive text := by
    intro n
    induction n using Nat.strongRecOn with
    | ind n ih =>
      intro line length inner
      rw [chunks_of_ne_nil positive (by simp : line ++ eol :: text ≠ []),
        chunks_of_ne_nil positive (by simp : line ++ [eol] ≠ [])]
      by_cases fits : line.length < room
      · rw [chunk_line inner text fits, chunk_line inner [] fits, chunks_nil]
        rfl
      · have reach (rest : List α) : (line ++ rest).take room = line.take room :=
          take_append_of_le_length (by omega)
        have later (rest : List α) : (line ++ rest).drop room = line.drop room ++ rest :=
          drop_append_of_le_length (by omega)
        have none : eol ∉ line.take room := fun member => inner (mem_of_mem_take member)
        rw [chunk_full (by rwa [reach]), chunk_full (by rwa [reach])]
        rw [reach, reach, later, later, cons_append]
        refine congrArg (line.take room :: ·) (ih (line.drop room).length ?_ _ rfl ?_)
        · rw [length_drop]
          omega
        · exact fun member => inner (mem_of_mem_drop member)
  exact pieces line.length line rfl inner

/-- The chunks are the chunks of the lines. -/
lemma chunks_eq_flatMap (text : List α) :
    chunks eol room positive text =
      (lines eol text).flatMap (chunks eol room positive) := by
  induction text using lines_induction eol with
  | empty => rw [chunks_nil, lines, flatMap_nil]
  | unended line inner some => rw [lines_open inner some, flatMap_singleton]
  | ended line text inner ih =>
    rw [lines_append inner, flatMap_cons, chunks_append positive inner, ih]

/-- A line that fits is one chunk. -/
lemma chunks_of_mem_lines {line : List α} (member : line ∈ lines eol text)
    (fits : line.length ≤ room) : chunks eol room positive line = [line] := by
  induction text using lines_induction eol with
  | empty => cases member
  | unended other inner some =>
    rw [lines_open inner some, mem_singleton] at member
    subst member
    have whole : line.take room = line := take_of_length_le fits
    rw [chunks_of_ne_nil positive some, chunk_full (by rwa [whole]), whole,
      drop_of_length_le fits, chunks_nil]
  | ended other text inner ih =>
    rw [lines_append inner, mem_cons] at member
    rcases member with here | later
    · subst here
      rw [length_append, length_singleton] at fits
      rw [chunks_of_ne_nil positive (by simp), chunk_line inner [] fits, chunks_nil]
    · exact ih later

/-- Lines that all fit are the chunks. -/
lemma chunks_eq_lines (fit : ∀ line ∈ lines eol text, line.length ≤ room) :
    chunks eol room positive text = lines eol text := by
  rw [chunks_eq_flatMap]
  have single : ∀ line ∈ lines eol text, chunks eol room positive line = [line] :=
    fun line member => chunks_of_mem_lines positive member (fit line member)
  rw [flatMap_congr single]
  exact flatMap_singleton' _

end

section

variable {stop : α} {text : List α}

/-- Up to a symbol that does not occur. -/
lemma takeWhile_ne_of_notMem (absent : stop ∉ text) : text.takeWhile (· ≠ stop) = text := by
  refine takeWhile_eq_self_iff.mpr fun c member => decide_eq_true fun same => absent ?_
  rwa [← same]

lemma takeWhile_ne_append (absent : stop ∉ text) (rest : List α) :
    (text ++ stop :: rest).takeWhile (· ≠ stop) = text := by
  have kept := takeWhile_eq_self_iff.mp (takeWhile_ne_of_notMem absent)
  rw [takeWhile_append_of_pos kept, takeWhile_cons_of_neg (by simp), append_nil]

lemma notMem_takeWhile_ne (text : List α) : stop ∉ text.takeWhile (· ≠ stop) := by
  intro member
  have other := mem_takeWhile_imp member
  exact of_decide_eq_true other rfl

/-- A symbol after the first `stop` makes no difference. -/
lemma takeWhile_ne_concat_of_mem (present : stop ∈ text) (c : α) :
    (text ++ [c]).takeWhile (· ≠ stop) = text.takeWhile (· ≠ stop) := by
  obtain ⟨first, rest, rfl, absent⟩ := eq_append_cons_of_mem present
  rw [takeWhile_ne_append absent, append_assoc, cons_append, takeWhile_ne_append absent]

end

/-- A further symbol goes to the last piece. -/
lemma splitOn_concat {delimiter : α} (inside : c ≠ delimiter) (text : List α) :
    ∃ firsts piece, text.splitOn delimiter = firsts ++ [piece] ∧
      (text ++ [c]).splitOn delimiter = firsts ++ [piece ++ [c]] := by
  induction text with
  | nil => exact ⟨[], [], rfl, splitOn_eq_singleton (by simpa using inside.symm)⟩
  | cons d text ih =>
    obtain ⟨firsts, piece, open_, more⟩ := ih
    rw [cons_append, splitOn_cons_eq_if_modifyHead, splitOn_cons_eq_if_modifyHead, open_, more]
    by_cases ends : (d == delimiter) = true
    · rw [if_pos ends, if_pos ends]
      exact ⟨[] :: firsts, piece, rfl, rfl⟩
    · rw [if_neg ends, if_neg ends]
      cases firsts with
      | nil => exact ⟨[], d :: piece, rfl, rfl⟩
      | cons first firsts => exact ⟨(d :: first) :: firsts, piece, rfl, rfl⟩

end Ndpi.Lib
