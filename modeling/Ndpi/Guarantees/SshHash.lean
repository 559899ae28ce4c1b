import Ndpi.Lib.Fields
import Ndpi.Source.Ssh

/-!
# The hash string of a key exchange message

`concat_hash_string` reads only the payload and writes only a buffer of its length: what it
has written is never longer than the part of the payload it has passed. On a well-formed
message with the fingerprint enabled, the buffer has the lists of the sender's direction
with semicolons between them.
-/
namespace Ndpi.Guarantees.SshHash
open Lib Lib.CString Source.Ssh List Scan Memory

variable {payload : Bytes}

/-- The buffer has the length of the payload and nothing was stored outside of it. -/
structure Contained (payload : Bytes) (s : HashState) : Prop where
  room : s.buf.cells.length = payload.length
  clean : s.buf.stray = []

/-- What was written is no longer than what was passed. -/
structure Within (payload : Bytes) (s : HashState) : Prop extends Contained payload s where
  behind : s.bufOutLen ≤ s.offset

/-- The state is contained on both ways out of a part, and the next part can rely on more. -/
def Holds (payload : Bytes) : Parsed → Prop
  | .valid s => Within payload s
  | .invalid s => Contained payload s

lemma Contained.stored (contained : Contained payload s)
    (inside : s.bufOutLen + text.length ≤ payload.length) :
    (s.buf.storeAll s.bufOutLen text).cells.length = payload.length ∧
      (s.buf.storeAll s.bufOutLen text).stray = [] := by
  rw [storeAll_length, storeAll_inside _ _ _ (by rw [contained.room]; exact inside)]
  exact ⟨contained.room, contained.clean⟩

lemma Contained.separated (contained : Contained payload s)
    (inside : s.bufOutLen < payload.length) : Contained payload (putSeparator s) := by
  have one : s.bufOutLen + [(59 : UInt8)].length ≤ payload.length := inside
  exact ⟨(contained.stored one).1, (contained.stored one).2⟩

lemma Contained.appended (contained : Contained payload s)
    (inside : s.bufOutLen + text.length < payload.length) (separator : Bool) :
    Contained payload (appendText separator text s) := by
  have stored := contained.stored (le_of_lt inside)
  have after : Contained payload { s with
      buf := s.buf.storeAll s.bufOutLen text, bufOutLen := s.bufOutLen + text.length } :=
    ⟨stored.1, stored.2⟩
  unfold appendText
  split
  · exact after.separated inside
  · exact after

lemma appendText_bufOutLen (separator : Bool) (text : Bytes) (s : HashState) :
    (appendText separator text s).bufOutLen ≤ s.bufOutLen + text.length + 1 := by
  unfold appendText
  split
  · exact le_refl _
  · exact Nat.le_succ _

lemma appendText_offset (separator : Bool) (text : Bytes) (s : HashState) :
    (appendText separator text s).offset = s.offset := by
  unfold appendText
  split <;> rfl

lemma storeData_within (cfg : Config) (clientHash : Bool)
    (within : Within payload s) (inside : s.bufOutLen < payload.length) :
    Within payload (storeData cfg clientHash s) := by
  unfold storeData
  split
  · have one : s.bufOutLen + [(0 : UInt8)].length ≤ payload.length := inside
    exact ⟨⟨(within.stored one).1, (within.stored one).2⟩, within.behind⟩
  · exact within

lemma storeData_frame (cfg : Config) (clientHash : Bool) (s : HashState) :
    (storeData cfg clientHash s).offset = s.offset ∧
      (storeData cfg clientHash s).bufOutLen = s.bufOutLen := by
  unfold storeData
  split <;> exact ⟨rfl, rfl⟩

section

variable {bound : Nat}

lemma yields_copyText (inside : offset + len ≤ bound) :
    (copyText payload offset len).Yields bound (· = strncpy (payload.drop offset) len) := by
  refine ⟨?_, _, rfl, rfl⟩
  intro index read
  obtain ⟨i, within, rfl⟩ := mem_map.mp read
  have few := lt_of_lt_of_le (mem_range.mp within) (min_le_left _ _)
  omega

lemma yields_analyseList (inside : offset + len ≤ bound) :
    (analyseList payload clientHash ciphers offset len flow).Yields bound fun _ => True := by
  unfold analyseList
  split
  · exact yields_bind (yields_copyText inside) fun _ _ => yields_pure trivial
  · exact yields_pure trivial

variable {f : HashState → Scan Parsed}

/-- The rule for two parts in turn. -/
lemma yields_andThen {x : Scan Parsed} {good : HashState → Prop}
    {post : Parsed → Prop} (first : x.Yields bound fun parsed =>
      (∀ s, parsed = .valid s → good s) ∧ ∀ s, parsed = .invalid s → post (.invalid s))
    (rest : ∀ s, good s → (f s).Yields bound post) : (Parsed.andThen x f).Yields bound post := by
  apply yields_bind first
  rintro parsed ⟨valid, invalid⟩
  cases parsed with
  | valid s => exact rest s (valid s rfl)
  | invalid s => exact yields_pure (invalid s rfl)

/-- Two parts in turn, as far as containment goes. -/
lemma holds_andThen {x : Scan Parsed} (first : x.Yields bound (Holds payload))
    (rest : ∀ s, Within payload s → (f s).Yields bound (Holds payload)) :
    (Parsed.andThen x f).Yields bound (Holds payload) := by
  refine yields_andThen (first.weaken ?_) rest
  rintro parsed holds
  refine ⟨?_, ?_⟩
  · rintro s rfl
    exact holds
  · rintro s rfl
    exact holds

end

lemma four_inside (long : 5 < payload.length) (below : ¬offset ≥ maxPayloadLen payload) :
    offset + 4 < payload.length := by
  unfold maxPayloadLen at below
  rw [sub32_of_le (by omega)] at below
  omega

lemma text_inside (fits : ¬TooLong payload offset len) : offset + len + 2 ≤ payload.length := by
  obtain ⟨before, short⟩ := not_or.mp fits
  have inside : sub32 payload.length offset = payload.length - offset := sub32_of_le (by omega)
  rw [inside, sub32_of_le (by omega)] at short
  omega

lemma skipList_holds (contained : Contained payload s) (behind : s.bufOutLen ≤ s.offset + len) :
    Holds payload (skipList len s) := by
  unfold skipList
  split
  · exact contained
  · exact ⟨⟨contained.room, contained.clean⟩, behind⟩

section

variable (long : 5 < payload.length)
include long

lemma kexAlgorithms_holds (contained : Contained payload s) (start : s.bufOutLen = 0) :
    (kexAlgorithms payload s).Yields payload.length fun parsed => Holds payload parsed ∧
      ∀ t, parsed = .valid t → t.bufOutLen < payload.length ∧ t.bufOutLen < t.offset := by
  unfold kexAlgorithms
  split
  · exact yields_pure ⟨contained, fun t valid => nomatch valid⟩
  next below =>
  have four := four_inside long below
  refine yields_bind (yields_be32 (by omega)) fun len _ => ?_
  dsimp only
  split
  · exact yields_pure ⟨⟨contained.room, contained.clean⟩, fun t valid => nomatch valid⟩
  next fits =>
  have inside := text_inside fits
  apply yields_bind (yields_copyText (by omega))
  rintro text rfl
  have fitting : s.bufOutLen + (strncpy (payload.drop (s.offset + 4)) len).length ≤
      payload.length := by
    rw [strncpy_length]
    omega
  have stored := contained.stored fitting
  rw [start] at stored
  refine yields_pure ⟨⟨⟨stored.1, stored.2⟩, ?_⟩, ?_⟩
  · dsimp only
    omega
  · intro t valid
    cases valid
    dsimp only
    omega

lemma skippedList_holds (within : Within payload s) :
    (skippedList payload s).Yields payload.length (Holds payload) := by
  unfold skippedList
  split
  · exact yields_pure within.toContained
  next below =>
  have four := four_inside long below
  have behind := within.behind
  refine yields_bind (yields_be32 (by omega)) fun len _ => ?_
  refine yields_pure (skipList_holds ⟨within.room, within.clean⟩ ?_)
  dsimp only
  omega

lemma copiedList_holds (within : Within payload s) :
    (copiedList payload clientHash ciphers separator s).Yields payload.length (Holds payload) := by
  unfold copiedList
  split
  · exact yields_pure within.toContained
  next below =>
  have four := four_inside long below
  have behind := within.behind
  refine yields_bind (yields_be32 (by omega)) fun len _ => ?_
  dsimp only
  split
  · have moved : Contained payload { s with offset := s.offset + 4 } := ⟨within.room, within.clean⟩
    exact yields_pure moved
  next fits =>
  have inside := text_inside fits
  apply yields_bind (yields_copyText (by omega))
  rintro text rfl
  refine yields_bind (yields_analyseList (by omega)) fun flow _ => ?_
  have room : Contained payload { s with offset := s.offset + 4, flow := flow } :=
    ⟨within.room, within.clean⟩
  refine yields_pure (skipList_holds (room.appended ?_ separator) ?_)
  · rw [strncpy_length]
    dsimp only
    omega
  · apply le_trans (appendText_bufOutLen _ _ _)
    rw [strncpy_length, appendText_offset]
    dsimp only
    omega

lemma directedList_holds (within : Within payload s) :
    (directedList payload clientHash toServer ciphers separator s).Yields payload.length
      (Holds payload) := by
  unfold directedList
  split
  · exact copiedList_holds long within
  · exact skippedList_holds long within

lemma hashLists_holds (within : Within payload s) :
    (hashLists payload clientHash s).Yields payload.length (Holds payload) := by
  unfold hashLists
  iterate 6 refine holds_andThen ?_ fun t => directedList_holds long
  exact skippedList_holds long within

lemma concatHashString_contained (cfg : Config) (clientHash : Bool)
    (flow : SshFlow) (room : buf.cells.length = payload.length) (clean : buf.stray = []) :
    (concatHashString cfg payload clientHash buf flow).Yields payload.length fun result =>
      result.2.1.cells.length = payload.length ∧ result.2.1.stray = [] := by
  unfold concatHashString
  have start : Contained payload ⟨22, buf, 0, flow⟩ := ⟨room, clean⟩
  apply yields_bind (kexAlgorithms_holds long start rfl)
  rintro parsed ⟨holds, ahead⟩
  cases parsed with
  | invalid s => exact yields_pure ⟨holds.room, holds.clean⟩
  | valid s =>
    obtain ⟨inside, passed⟩ := ahead s rfl
    have within := storeData_within cfg clientHash holds inside
    obtain ⟨offset, length⟩ := storeData_frame cfg clientHash s
    dsimp only
    split
    · have separated : Within payload (putSeparator (storeData cfg clientHash s)) := by
        refine ⟨within.separated (by rw [length]; exact inside), ?_⟩
        show (storeData cfg clientHash s).bufOutLen + 1 ≤ (storeData cfg clientHash s).offset
        omega
      apply yields_bind (hashLists_holds long separated)
      intro lists listsHold
      cases lists with
      | invalid t => exact yields_pure ⟨listsHold.room, listsHold.clean⟩
      | valid t => exact yields_pure ⟨listsHold.room, listsHold.clean⟩
    · exact yields_pure ⟨within.room, within.clean⟩

end

/-- A text behind its length in four bytes. -/
def nameString (text : Bytes) : Bytes := beBytes 4 text.length ++ text

/-- A key exchange message: 22 bytes up to the end of the cookie, the ten lists, and what
follows them, at least the flag and the reserved word. -/
structure Kexinit where
  start : Bytes
  kex : Bytes
  hostKey : Bytes
  encryptionToServer : Bytes
  encryptionToClient : Bytes
  macToServer : Bytes
  macToClient : Bytes
  compressionToServer : Bytes
  compressionToClient : Bytes
  languagesToServer : Bytes
  languagesToClient : Bytes
  rest : Bytes
  startLength : start.length = 22
  code : start[5]? = some 20
  restLength : 5 ≤ rest.length
  plain : ∀ text ∈ [kex, hostKey, encryptionToServer, encryptionToClient, macToServer, macToClient,
    compressionToServer, compressionToClient, languagesToServer, languagesToClient], 0 ∉ text

def Kexinit.encode (k : Kexinit) : Bytes :=
  k.start ++ (nameString k.kex ++ (nameString k.hostKey ++ (nameString k.encryptionToServer ++
    (nameString k.encryptionToClient ++ (nameString k.macToServer ++ (nameString k.macToClient ++
      (nameString k.compressionToServer ++ (nameString k.compressionToClient ++
        (nameString k.languagesToServer ++ (nameString k.languagesToClient ++ k.rest))))))))))

/-- The lists of one direction with semicolons between them. -/
def Kexinit.hashString (k : Kexinit) (toServer : Bool) : Bytes :=
  [59].intercalate (if toServer then
    [k.kex, k.encryptionToServer, k.macToServer, k.compressionToServer]
  else [k.kex, k.encryptionToClient, k.macToClient, k.compressionToClient])

def written (s : HashState) : Bytes := s.buf.cells.take s.bufOutLen

/-- The walk stands before this rest of the payload and has written this text. -/
structure Reached (payload rest text : Bytes) (s : HashState) : Prop extends Within payload s where
  here : payload.drop s.offset = rest
  wrote : written s = text

def Reaches (payload rest text : Bytes) (parsed : Parsed) : Prop :=
  ∃ s, parsed = .valid s ∧ Reached payload rest text s

lemma reaches_andThen {x : Scan Parsed} {post : Parsed → Prop}
    (first : x.Yields bound (Reaches payload rest text))
    (next : ∀ s, Reached payload rest text s → (f s).Yields bound post) :
    (Parsed.andThen x f).Yields bound post := by
  refine yields_andThen (first.weaken ?_) next
  rintro parsed ⟨s, rfl, reached⟩
  refine ⟨?_, ?_⟩
  · intro t valid
    cases valid
    exact reached
  · intro t invalid
    cases invalid

lemma nameString_length (text : Bytes) : (nameString text).length = 4 + text.length := by
  rw [nameString, length_append, beBytes_length]

lemma nameString_append_length (text : Bytes) : 2 ≤ (nameString text ++ more).length := by
  rw [length_append, nameString_length]
  omega

lemma nameString_append_ne_nil (text more : Bytes) : nameString text ++ more ≠ [] :=
  ne_nil_of_length_pos (lt_of_lt_of_le Nat.zero_lt_two (nameString_append_length text))

/-- The message behind its key exchange algorithms. -/
def Kexinit.behindKex (k : Kexinit) : Bytes :=
  nameString k.hostKey ++ (nameString k.encryptionToServer ++ (nameString k.encryptionToClient ++
    (nameString k.macToServer ++ (nameString k.macToClient ++ (nameString k.compressionToServer ++
      (nameString k.compressionToClient ++ (nameString k.languagesToServer ++
        (nameString k.languagesToClient ++ k.rest))))))))

section

variable (short : payload.length < 65536) {s : HashState} {text rest wrote : Bytes}

lemma appendText_written (contained : Contained payload s)
    (inside : s.bufOutLen + text.length < payload.length) (separator : Bool) :
    written (appendText separator text s) =
      written s ++ (text ++ if separator then [59] else []) := by
  have first := storeAll_take_append text s.buf s.bufOutLen
    (by rw [contained.room]; exact le_of_lt inside)
  unfold appendText
  cases separator with
  | false => simpa [written] using first
  | true =>
    have second := storeAll_take_append [59] (s.buf.storeAll s.bufOutLen text)
      (s.bufOutLen + text.length) (by rw [storeAll_length, contained.room]; exact inside)
    rw [first, append_assoc] at second
    exact second

/-- The numbers of a list that the payload has room for. -/
lemma list_here (before : Reached payload (nameString text ++ rest) wrote s)
    (tail : 2 ≤ rest.length) :
    payload.length = s.offset + 4 + text.length + rest.length ∧
    payload.drop s.offset = beBytes 4 text.length ++ (text ++ rest) ∧
    payload.drop (s.offset + 4) = text ++ rest ∧
    payload.drop (s.offset + 4 + text.length) = rest := by
  have nonempty : nameString text ++ rest ≠ [] :=
    append_ne_nil_of_right_ne_nil _ (ne_nil_of_length_pos (by omega))
  have length := length_of_drop before.here nonempty
  have fields : payload.drop s.offset = beBytes 4 text.length ++ (text ++ rest) := by
    rw [before.here, nameString, append_assoc]
  have behind := drop_add_of_drop fields (beBytes_length _ _)
  rw [length_append, nameString_length] at length
  exact ⟨by omega, fields, behind, drop_add_of_drop behind rfl⟩

lemma not_tooLong (inside : offset + len + 2 ≤ payload.length) : ¬TooLong payload offset len := by
  have first : sub32 payload.length offset = payload.length - offset := sub32_of_le (by omega)
  rintro (outside | large)
  · omega
  · rw [first, sub32_of_le (by omega)] at large
    omega

lemma below_maxPayloadLen (inside : offset + 4 < payload.length) :
    ¬offset ≥ maxPayloadLen payload := by
  unfold maxPayloadLen
  rw [sub32_of_le (by omega)]
  omega

include short

lemma skippedList_reaches (before : Reached payload (nameString text ++ rest) wrote s)
    (tail : 2 ≤ rest.length) :
    (skippedList payload s).Yields payload.length (Reaches payload rest wrote) := by
  obtain ⟨length, fields, -, behind⟩ := list_here before tail
  have ordered := before.behind
  unfold skippedList
  rw [if_neg (below_maxPayloadLen (by omega))]
  apply yields_bind (yields_be32_at fields (by omega) (by omega))
  rintro len rfl
  refine yields_pure ⟨{ s with offset := s.offset + 4 + text.length }, ?_, ?_⟩
  · rw [skipList, if_neg (by unfold lenMax; omega)]
  · refine ⟨⟨⟨before.room, before.clean⟩, ?_⟩, behind, before.wrote⟩
    dsimp only
    omega

lemma copiedList_reaches (clientHash ciphers separator : Bool)
    (before : Reached payload (nameString text ++ rest) wrote s) (plain : 0 ∉ text)
    (tail : 2 ≤ rest.length) :
    (copiedList payload clientHash ciphers separator s).Yields payload.length
      (Reaches payload rest (wrote ++ (text ++ if separator then [59] else []))) := by
  obtain ⟨length, fields, content, behind⟩ := list_here before tail
  have ordered := before.behind
  unfold copiedList
  rw [if_neg (below_maxPayloadLen (by omega))]
  apply yields_bind (yields_be32_at fields (by omega) (by omega))
  rintro len rfl
  rw [if_neg (not_tooLong (by omega))]
  apply yields_bind (yields_copyText (by omega))
  rintro copied rfl
  rw [content, strncpy_append plain]
  refine yields_bind (yields_analyseList (by omega)) fun flow _ => ?_
  have contained : Contained payload { s with offset := s.offset + 4, flow := flow } :=
    ⟨before.room, before.clean⟩
  have inside : s.bufOutLen + text.length < payload.length := by omega
  have appended := contained.appended inside separator
  have wrote' := appendText_written contained inside separator
  have end_ := appendText_bufOutLen separator text { s with offset := s.offset + 4, flow := flow }
  have place := appendText_offset separator text { s with offset := s.offset + 4, flow := flow }
  generalize appendText separator text { s with offset := s.offset + 4, flow := flow } = after
    at appended wrote' end_ place ⊢
  dsimp only at end_ place
  refine yields_pure ⟨{ after with offset := after.offset + text.length }, ?_, ?_⟩
  · rw [skipList, if_neg (by unfold lenMax; omega)]
  · refine ⟨⟨⟨appended.room, appended.clean⟩, ?_⟩, ?_, ?_⟩
    · dsimp only
      omega
    · dsimp only
      rw [place]
      exact behind
    · exact wrote'.trans (congrArg (· ++ _) before.wrote)

lemma directedList_reaches (clientHash toServer ciphers separator : Bool)
    (before : Reached payload (nameString text ++ rest) wrote s) (plain : 0 ∉ text)
    (tail : 2 ≤ rest.length) :
    (directedList payload clientHash toServer ciphers separator s).Yields payload.length
      (Reaches payload rest (wrote ++
        if clientHash = toServer then text ++ if separator then [59] else [] else [])) := by
  unfold directedList
  split
  · exact copiedList_reaches short _ _ _ before plain tail
  · rw [append_nil]
    exact skippedList_reaches short before tail

lemma kexAlgorithms_reaches (contained : Contained payload s) (start : s.bufOutLen = 0)
    (here : payload.drop s.offset = nameString text ++ rest) (plain : 0 ∉ text)
    (tail : 2 ≤ rest.length) :
    (kexAlgorithms payload s).Yields payload.length fun parsed => ∃ t, parsed = .valid t ∧
      Reached payload rest text t ∧ t.bufOutLen + 4 ≤ t.offset ∧ t.flow = s.flow := by
  have empty : written s = [] := by rw [written, start, take_zero]
  have before : Reached payload (nameString text ++ rest) [] s :=
    ⟨⟨contained, by omega⟩, here, empty⟩
  obtain ⟨length, fields, content, behind⟩ := list_here before tail
  unfold kexAlgorithms
  rw [if_neg (below_maxPayloadLen (by omega))]
  apply yields_bind (yields_be32_at fields (by omega) (by omega))
  rintro len rfl
  rw [if_neg (not_tooLong (by omega))]
  apply yields_bind (yields_copyText (by omega))
  rintro copied rfl
  rw [content, strncpy_append plain]
  have stored := contained.stored (by omega : s.bufOutLen + text.length ≤ payload.length)
  have stores := storeAll_take_append text s.buf s.bufOutLen
    (by rw [contained.room]; omega)
  rw [start] at stored stores
  refine yields_pure ⟨_, rfl, ⟨⟨⟨stored.1, stored.2⟩, ?_⟩, behind, ?_⟩, ?_, rfl⟩
  · dsimp only
    omega
  · rw [zero_add, take_zero, nil_append] at stores
    exact stores
  · dsimp only
    omega

/-- All the lists behind the key exchange algorithms. -/
lemma hashLists_reaches (k : Kexinit) (clientHash : Bool)
    (before : Reached payload k.behindKex (k.kex ++ [59]) s) :
    (hashLists payload clientHash s).Yields payload.length (Reaches payload
      (nameString k.languagesToServer ++ (nameString k.languagesToClient ++ k.rest))
      (k.hashString clientHash)) := by
  have plain := k.plain
  simp only [forall_mem_cons] at plain
  obtain ⟨-, -, encryptionC, encryptionS, macC, macS, compressionC, compressionS, -⟩ := plain
  have hostKey := skippedList_reaches short before (nameString_append_length _)
  have encryptionToServer := reaches_andThen hostKey fun t reached =>
    directedList_reaches short clientHash true true true reached encryptionC
      (nameString_append_length _)
  have encryptionToClient := reaches_andThen encryptionToServer fun t reached =>
    directedList_reaches short clientHash false true true reached encryptionS
      (nameString_append_length _)
  have macToServer := reaches_andThen encryptionToClient fun t reached =>
    directedList_reaches short clientHash true false true reached macC
      (nameString_append_length _)
  have macToClient := reaches_andThen macToServer fun t reached =>
    directedList_reaches short clientHash false false true reached macS
      (nameString_append_length _)
  have compressionToServer := reaches_andThen macToClient fun t reached =>
    directedList_reaches short clientHash true false false reached compressionC
      (nameString_append_length _)
  have compressionToClient := reaches_andThen compressionToServer fun t reached =>
    directedList_reaches short clientHash false false false reached compressionS
      (nameString_append_length _)
  apply compressionToClient.weaken
  rintro parsed ⟨t, rfl, reached⟩
  refine ⟨t, rfl, reached.toWithin, reached.here, reached.wrote.trans ?_⟩
  cases clientHash <;> simp [Kexinit.hashString, List.intercalate]

end

section

variable {s : HashState} {text rest : Bytes}

/-- Before the end of the payload there is room in the buffer. -/
lemma Reached.inside (reached : Reached payload rest text s) (more : rest ≠ []) :
    s.bufOutLen < payload.length := by
  have positive := length_pos_iff.mpr more
  have length := length_of_drop reached.here more
  have behind := reached.behind
  omega

lemma Reached.length (reached : Reached payload rest text s) (more : rest ≠ []) :
    s.bufOutLen = text.length := by
  have inside := reached.inside more
  rw [← reached.wrote, written, length_take, reached.room]
  omega

lemma storeData_reached (cfg : Config) (clientHash : Bool)
    (reached : Reached payload rest text s) (more : rest ≠ []) :
    Reached payload rest text (storeData cfg clientHash s) := by
  obtain ⟨offset, length⟩ := storeData_frame cfg clientHash s
  refine ⟨storeData_within cfg clientHash reached.toWithin (reached.inside more), ?_, ?_⟩
  · rw [offset]
    exact reached.here
  · rw [written, length, ← reached.wrote, written]
    unfold storeData
    split
    · exact store_take _ _ (le_refl _)
    · rfl

lemma putSeparator_reached (reached : Reached payload rest text s) (more : rest ≠ [])
    (ahead : s.bufOutLen < s.offset) : Reached payload rest (text ++ [59]) (putSeparator s) := by
  have inside := reached.inside more
  refine ⟨⟨reached.separated inside, ahead⟩, reached.here, ?_⟩
  have stored := storeAll_take_append [59] s.buf s.bufOutLen (by rw [reached.room]; exact inside)
  rw [← reached.wrote]
  exact stored

end

/-- The walk behind the key exchange algorithms of a message. -/
lemma kexAlgorithms_encode {k : Kexinit} (short : k.encode.length < 65536) {buf : Memory}
    {flow : SshFlow} (room : buf.cells.length = k.encode.length) (clean : buf.stray = []) :
    (kexAlgorithms k.encode ⟨22, buf, 0, flow⟩).Yields k.encode.length fun parsed =>
      ∃ s, parsed = .valid s ∧ Reached k.encode k.behindKex k.kex s ∧ s.bufOutLen + 4 ≤ s.offset ∧
        s.flow = flow := by
  have contained : Contained k.encode ⟨22, buf, 0, flow⟩ := ⟨room, clean⟩
  have here : k.encode.drop 22 = nameString k.kex ++ k.behindKex := drop_left' k.startLength
  exact kexAlgorithms_reaches short contained rfl here (k.plain _ mem_cons_self)
    (nameString_append_length _)

/-- The result on a well-formed message. -/
lemma concatHashString_kexinit {cfg : Config} {k : Kexinit} {clientHash : Bool} {buf : Memory}
    {flow : SshFlow} (short : k.encode.length < 65536) (room : buf.cells.length = k.encode.length)
    (clean : buf.stray = []) :
    (concatHashString cfg k.encode clientHash buf flow).Yields k.encode.length fun result =>
      if cfg.sshHasshFingerprintEnabled then
        result.1 = (k.hashString clientHash).length ∧
          result.2.1.cells.take result.1 = k.hashString clientHash
      else result.1 = 0 := by
  unfold concatHashString
  apply yields_bind (kexAlgorithms_encode short room clean)
  rintro parsed ⟨s, rfl, reached, ahead, -⟩
  dsimp only
  obtain ⟨offset, length⟩ := storeData_frame cfg clientHash s
  have stored := storeData_reached cfg clientHash reached (nameString_append_ne_nil _ _)
  have separated := putSeparator_reached stored (nameString_append_ne_nil _ _) (by omega)
  split
  · apply yields_bind (hashLists_reaches short k clientHash separated)
    rintro lists ⟨t, rfl, final⟩
    have inside := final.inside (nameString_append_ne_nil _ _)
    have whole := final.length (nameString_append_ne_nil _ _)
    refine yields_pure ⟨?_, ?_⟩
    · rw [← whole]
      exact wrap16_of_lt (by omega)
    · dsimp only
      rw [wrap16_of_lt (by omega)]
      exact final.wrote
  · exact yields_pure rfl

lemma Kexinit.code_encode (k : Kexinit) : k.encode[5]? = some 20 := by
  rw [Kexinit.encode, getElem?_append_left (by rw [k.startLength]; decide)]
  exact k.code

lemma Kexinit.encode_long (k : Kexinit) : 5 < k.encode.length := by
  rw [Kexinit.encode, length_append, k.startLength]
  omega

/-- Every payload of more than five bytes is read inside only, and a buffer of its length is
written inside only. On a well-formed message the result is, with the fingerprint enabled, the
length of the sender's lists joined with semicolons, which the buffer starts with. -/
theorem concatHashString_contained_and_joined (cfg : Config) (payload : Bytes) (clientHash : Bool)
    (buf : Memory) (flow : SshFlow) (long : 5 < payload.length) (short : payload.length < 65536)
    (room : buf.cells.length = payload.length) (clean : buf.stray = []) :
    (concatHashString cfg payload clientHash buf flow).Yields payload.length fun result =>
      result.2.1.cells.length = payload.length ∧ result.2.1.stray = [] ∧
      ∀ k : Kexinit, k.encode = payload →
        if cfg.sshHasshFingerprintEnabled then
          result.1 = (k.hashString clientHash).length ∧
            result.2.1.cells.take result.1 = k.hashString clientHash
        else result.1 = 0 := by
  obtain ⟨reads, result, value, contained⟩ :=
    concatHashString_contained long cfg clientHash flow room clean
  refine ⟨reads, result, value, contained.1, contained.2, ?_⟩
  rintro k rfl
  obtain ⟨-, other, value', joined⟩ := concatHashString_kexinit short room clean
  obtain rfl := Option.some.inj (value.symm.trans value')
  exact joined

/-- The lists of a small message, in the order of the message. -/
def smallLists : List Bytes :=
  [[107], [104], [97], [98], [109], [110], [99], [100], [], []]

lemma smallLists_plain : ∀ text ∈ smallLists, 0 ∉ text := by
  unfold smallLists
  simp

/-- A message with the key exchange algorithm `k`, the ciphers `a` and `b`, the MACs `m` and `n`
and the compressions `c` and `d`. -/
def smallKexinit : Kexinit where
  start := [0, 0, 0, 76, 4, 20] ++ List.replicate 16 7
  kex := [107]
  hostKey := [104]
  encryptionToServer := [97]
  encryptionToClient := [98]
  macToServer := [109]
  macToClient := [110]
  compressionToServer := [99]
  compressionToClient := [100]
  languagesToServer := []
  languagesToClient := []
  rest := List.replicate 9 0
  startLength := rfl
  code := rfl
  restLength := Nat.le_add_left 5 4
  plain := smallLists_plain

def emptyFlow : SshFlow := ⟨none, none, none, []⟩

theorem concatHashString_small :
    5 < smallKexinit.encode.length ∧
    (concatHashString ⟨true, true⟩ smallKexinit.encode true
        ⟨List.replicate smallKexinit.encode.length 0, []⟩ emptyFlow).Yields
      smallKexinit.encode.length fun result =>
        result.2.1.cells.length = smallKexinit.encode.length ∧ result.2.1.stray = [] ∧
        ∀ k : Kexinit, k.encode = smallKexinit.encode →
          result.1 = (k.hashString true).length ∧
            result.2.1.cells.take result.1 = k.hashString true :=
  ⟨by decide, concatHashString_contained_and_joined ⟨true, true⟩ smallKexinit.encode true _ emptyFlow
    (by decide) (by decide) length_replicate rfl⟩

/-- With the data enabled and the fingerprint disabled nothing is joined. -/
theorem concatHashString_without_fingerprint :
    smallKexinit.hashString true = [107, 59, 97, 59, 109, 59, 99] ∧
    (concatHashString ⟨true, false⟩ smallKexinit.encode true
        ⟨List.replicate smallKexinit.encode.length 0, []⟩ emptyFlow).val.map (·.1) = some 0 := by
  decide

end Ndpi.Guarantees.SshHash
