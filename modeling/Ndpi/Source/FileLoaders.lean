import Ndpi.Lib.Lines
import Ndpi.Source.CustomRules

/-!
# Loading files line by line

`ndpi_main.c:5857-5923,5959-6007,6038-6115,6385-6413,6445-6484,6610-6672` and
`ndpi_api.h:2485-2487`: the loaders of configurations, categories, risky domains, JA4
fingerprints and rules. A file is the list of its characters. What the loaders hand
to the rest of the library is kept in order; how that answers is a parameter.
-/
namespace Ndpi.Source.FileLoaders
open Lib Source.CustomRules

/-- `fgets` with a buffer of this size: what it stores before the zero byte, and the
rest of the file. -/
def fgets (size : Nat) (stream : Text) : Option (Text × Text) :=
  if stream = [] then none else some (chunk '\n' (size - 1) stream)

/-- What `fgets` with a buffer of `room + 1` bytes stores in turn. -/
abbrev reads (room : Nat) (positive : 0 < room) (content : Text) : List Text :=
  chunks '\n' room positive content

/-- The C string at the start of these bytes; its length is `strlen`. -/
def cString (bytes : Text) : Text := bytes.takeWhile (· ≠ '\x00')

/-- The tokens that `strtok_r` finds between these delimiters. -/
def tokens (delimiter : Char) (text : Text) : List Text :=
  (text.splitOn delimiter).filter (· ≠ [])

/-- The line that `load_config_file_fd`, `load_categories_file_fd`,
`load_risk_domain_file_fd` and `load_malicious_ja4_file_fd` go on with: its last
character is cut off. -/
def cutLine (bytes : Text) : Option Text :=
  let line := cString bytes
  if line.length ≤ 1 ∨ line.head? = some '#' then none else some line.dropLast

/-- The result and the names handed to `ndpi_load_risky_domain`; `loads` tells whether
that succeeds. -/
def loadRiskDomainFileFd (loads : Text → Bool) (content : Text) : Int × List Text :=
  let names := (reads 127 (by decide) content).filterMap cutLine
  (names.countP loads, names)

def ja4Line (bytes : Text) : Option Text :=
  match cutLine bytes with
  | none => none
  | some line =>
    let hash := line.takeWhile (· ≠ ',')
    if hash.length = 36 then some hash else none

/-- The result and the hashes handed to `ndpi_hash_add_entry`. -/
def loadMaliciousJa4FileFd (adds : Text → Bool) (content : Text) : Int × List Text :=
  let hashes := (reads 127 (by decide) content).filterMap ja4Line
  (hashes.countP adds, hashes)

/-- The number of a category, if there is one. -/
def categoryId (category : Text) : Option Int :=
  match strtonum category 1 (numCategories - 1) with
  | .ok id => some id
  | .error _ => none

def categoriesEntry (line : Text) : Option (Text × Int) :=
  match tokens '\t' line with
  | name :: category :: _ => (categoryId category).map fun id => (name, id)
  | _ => none

/-- The result and what is handed to `ndpi_load_category`. -/
def loadCategoriesFileFd (loads : Text × Int → Bool) (content : Text) :
    Int × List (Text × Int) :=
  let entries := (reads 511 (by decide) content).filterMap fun bytes =>
    (cutLine bytes).bind categoriesEntry
  (entries.countP loads, entries)

structure ConfigEntry where
  proto : Option Text
  param : Text
  value : Text
  deriving DecidableEq, Repr

/-- What a line of a configuration comes to: it is passed by, it makes the loader give
up, or it has an entry. -/
inductive ConfigLine where
  | passed
  | malformed
  | entry (entry : ConfigEntry)
  deriving DecidableEq, Repr

def parseConfig (line : Text) : ConfigLine :=
  let commas := line.count ','
  if commas = 1 then
    match tokens ',' line with
    | param :: value :: _ => .entry ⟨none, param, value⟩
    | _ => .malformed
  else if commas = 2 then
    match tokens ',' line with
    | proto :: param :: value :: _ => .entry ⟨some proto, param, value⟩
    | _ => .malformed
  else .passed

def configLine (bytes : Text) : ConfigLine :=
  match cutLine bytes with
  | none => .passed
  | some line => parseConfig line

/-- The loop over the lines, with `ndpi_set_config` on the state of the module: the
result, the entries handed over, and the state. -/
def loadConfigLines {σ : Type} (setConfig : σ → ConfigEntry → Int × σ) :
    σ → List Text → Int × List ConfigEntry × σ
  | s, [] => (0, [], s)
  | s, bytes :: rest =>
    match configLine bytes with
    | .passed => loadConfigLines setConfig s rest
    | .malformed => (-2, [], s)
    | .entry e =>
      let (rc, next) := setConfig s e
      if rc ≠ 0 then (rc, [e], next)
      else
        let (result, entries, final) := loadConfigLines setConfig next rest
        (result, e :: entries, final)

def loadConfigFileFd {σ : Type} (setConfig : σ → ConfigEntry → Int × σ) (s : σ) (content : Text) :
    Int × List ConfigEntry × σ :=
  loadConfigLines setConfig s (reads 511 (by decide) content)

def isalnum (c : Char) : Bool :=
  ('a' ≤ c && c ≤ 'z') || ('A' ≤ c && c ≤ 'Z') || ('0' ≤ c && c ≤ '9')

/-- The characters that the scan of a line goes on at. -/
def isNameChar (c : Char) : Bool :=
  c == '-' || c == '.' || c == ':' || c == '/' || isalnum c || c == '_'

/-- What `load_category_file_fd` does with a line: it counts as failed, it is passed by,
or the name is loaded. -/
inductive CategoryLine where
  | failed
  | passed
  | named (name : Text)
  deriving DecidableEq, Repr

def categoryLine (bytes : Text) : CategoryLine :=
  let text := cString bytes
  let len := text.length
  if len ≤ 1 ∨ len = 255 then .failed
  else if text.head? = some '#' then .passed
  else
    let i := text.findIdx fun c => c == '\r' || c == '\n' || !isNameChar c
    if text[i]? = some '\r' ∨ text[i]? = some '\n' then .named (text.take i)
    else if i ≠ len - 2 ∧ i ≠ len - 1 ∧ text[i]? ≠ none then .failed
    else .named text

def CategoryLine.name : CategoryLine → Option Text
  | .named name => some name
  | _ => none

/-- The breed that goes with a category. -/
def categoryBreed (categoryId : Nat) : Nat :=
  if categoryId = 99 ∨ categoryId = 100 ∨ categoryId = 107 then 4
  else if categoryId = 101 then 7
  else 2

/-- Consecutive pieces of a file with the places at which they start. -/
def placed (start : Nat) : List Text → List (Nat × Text)
  | [] => []
  | piece :: rest => (start, piece) :: placed (start + piece.length) rest

/-- A call of `ndpi_load_category`, with the place in the file that was read for it. -/
structure CategoryCall where
  place : Nat
  name : Text
  categoryId : Nat
  breed : Nat
  deriving DecidableEq, Repr

def categoryCall (categoryId place : Nat) (name : Text) : CategoryCall :=
  ⟨place, name, categoryId, categoryBreed categoryId⟩

def categoryCalls (categoryId : Nat) (pieces : List (Nat × Text)) : List CategoryCall :=
  pieces.filterMap fun piece =>
    (categoryLine piece.2).name.map (categoryCall categoryId piece.1)

/-- The result and the calls; `loads` tells which of them succeed. -/
def loadCategoryFileFd (loads : Text → Bool) (categoryId : Nat) (content : Text) :
    Int × List CategoryCall :=
  let pieces := placed 0 (reads 255 (by decide) content)
  let calls := categoryCalls categoryId pieces
  let failed := pieces.countP fun piece => categoryLine piece.2 == .failed
  (if failed ≠ 0 then -(failed : Int) else (calls.countP fun call => loads call.name), calls)

/-- How the inner loop of `load_protocols_file_fd` ends: with a line in the buffer, at
the end of the file, or without memory. -/
inductive RuleRead where
  | line (buffer : Text) (bufferLen : Nat) (stream : Text)
  | eof
  | noMemory
  deriving DecidableEq, Repr

lemma fgets_shorter (large : 1 < size)
    (read : fgets size stream = some (bytes, rest)) : rest.length < stream.length := by
  unfold fgets at read
  split at read
  · cases read
  · next some =>
    have shorter : (chunk '\n' (size - 1) stream).2.length < stream.length :=
      chunk_shorter (by omega) some
    rw [Option.some.inj read] at shorter
    exact shorter

/-- The inner loop. `buffer` is the C string in the buffer and `place` the index at
which the next chunk is stored: after the first chunk, that is the length of the
chunk before and not of the string. The function `granted` tells which sizes
`ndpi_realloc` provides. -/
def readRule (granted : Nat → Bool) (bufferLen lineLen : Nat) (_large : 1 < lineLen)
    (buffer : Text) (place : Nat) (stream : Text) : RuleRead :=
  match read : fgets lineLen stream with
  | none => .eof
  | some (bytes, rest) =>
    let line := cString bytes
    let stored := buffer.take place ++ line
    if line = [] ∨ line.getLast? = some '\n' then .line stored bufferLen rest
    else if granted (bufferLen + 1024) then
      readRule granted (bufferLen + 1024) 1024 (by decide) stored line.length rest
    else .noMemory
termination_by stream.length
decreasing_by exact fgets_shorter _large read

/-- What becomes of the line in the buffer: the rule, if it has one. -/
def ruleText (buffer : Text) : Option Text :=
  if buffer.length ≤ 1 ∨ buffer.head? = some '#' then none
  else
    let line := buffer.dropLast
    let rule := if line.getLast? = some '\r' then line.dropLast else line
    if rule = [] then none else some rule

/-- The inner loop reads on, and the buffer never shrinks. -/
lemma readRule_line
    (read : readRule granted bufferLen lineLen large buffer place stream = .line line after rest) :
    bufferLen ≤ after ∧ rest.length < stream.length := by
  induction length : stream.length using Nat.strongRecOn generalizing bufferLen lineLen place buffer
    stream with
  | ind n ih =>
    subst length
    rw [readRule] at read
    split at read
    · cases read
    · next bytes more chunk =>
      have shorter := fgets_shorter large chunk
      dsimp only at read
      split at read
      · cases read
        exact ⟨Nat.le_refl _, shorter⟩
      · split at read
        · have later := ih more.length shorter read rfl
          omega
        · cases read

/-- The outer loop, from a buffer of this size on: the result and the rules handed to
`ndpi_handle_rule`. -/
def loadRules (granted : Nat → Bool) (bufferLen : Nat) (large : 1 < bufferLen) (stream : Text) :
    Int × List Text :=
  match read : readRule granted bufferLen bufferLen large [] 0 stream with
  | .eof => (0, [])
  | .noMemory => (-2, [])
  | .line buffer bufferLen' rest =>
    let (rc, rules) := loadRules granted bufferLen'
      (Nat.lt_of_lt_of_le large (readRule_line read).1) rest
    (rc, (ruleText buffer).toList ++ rules)
termination_by stream.length
decreasing_by exact (readRule_line read).2

def loadProtocolsFileFd (granted : Nat → Bool) (content : Text) : Int × List Text :=
  if granted 1024 then loadRules granted 1024 (by decide) content else (-2, [])

end Ndpi.Source.FileLoaders
