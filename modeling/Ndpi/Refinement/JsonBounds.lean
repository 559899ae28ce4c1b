import Ndpi.Refinement.JsonWrite

/-!
# JSON operations that return 0 write inside their allocation

The escaper and the copies of an operation write without a check, but the closing
characters do not: if they are written, the offset is inside the allocation, and
since it only grew after the opening, so is everything before. Two stores lie
beyond the offset, the NUL after an escaped string and the one after a line; for
these the space is reserved.
-/
namespace Ndpi.Refinement
open Lib Source.Serialization List Memory

/-- What holds of every JSON serializer, whatever its calls returned. -/
structure Framed (multiline : Bool) (s : Serializer) : Prop where
  cells : s.buffer.data.cells.length = s.buffer.size
  size : s.buffer.size < 4294967296
  fmt : s.fmt = .json
  mode : s.multilineJsonArray = multiline
  outer : s.innerJson = false

section
variable {s t u : Serializer}

/-- The offset grew by `grow` or more, and nothing strayed if it ended `slack`
bytes inside the allocation. -/
structure Grows (grow slack : Nat) (s t : Serializer) : Prop where
  size : t.buffer.size = s.buffer.size
  cells : t.buffer.data.cells.length = s.buffer.data.cells.length
  used : s.status.used + grow ≤ t.status.used
  stray : t.status.used + slack ≤ s.buffer.size → t.buffer.data.stray = s.buffer.data.stray

lemma Grows.trans (first : Grows grow slack s t)
    (second : Grows grow' slack' t u) (covers : slack ≤ grow' + total) (covers' : slack' ≤ total) :
    Grows (grow + grow') total s u := by
  have used := first.used
  have used' := second.used
  refine ⟨second.size.trans first.size, second.cells.trans first.cells, by omega, ?_⟩
  intro room
  rw [second.stray (by rw [first.size]; omega), first.stray (by omega)]

/-- The least a write moves the offset. -/
def chunkLeast : Chunk → Nat
  | .print text => text.length
  | .escape _ => 2
  | .put _ => 1
  | .copy bytes => bytes.length

/-- How far beyond the offset it stores. -/
def chunkSlack : Chunk → Nat
  | .escape _ => 2
  | _ => 0

lemma append_grows (bytes : Bytes) (cells : s.buffer.data.cells.length = s.buffer.size)
    (below : s.status.used + bytes.length < 4294967296) :
    Grows bytes.length 0 s (s.append bytes) ∧
      (s.append bytes).status.used = s.status.used + bytes.length := by
  have used : (s.append bytes).status.used = s.status.used + bytes.length := wrap32_of_lt below
  refine ⟨⟨rfl, storeAll_length _ _ _, le_of_eq used.symm, ?_⟩, used⟩
  intro room
  exact storeAll_inside _ _ _ (by rw [cells]; omega)

lemma escape_grows (cells : s.buffer.data.cells.length = s.buffer.size)
    (below : s.status.used + (2 * src.length + 2) < 4294967296) :
    Grows 2 2 s (s.emit (.escape src)).ser := by
  have length := jsonStringEscape_length src (toInt32 s.buffDiff)
  have quotes : 2 ≤ (jsonStringEscape src (toInt32 s.buffDiff)).length := by
    simp [jsonStringEscape]
  generalize same : jsonStringEscape src (toInt32 s.buffDiff) = out at length quotes
  have small : s.status.used + out.length < 4294967296 := by omega
  have used : (s.emit (.escape src)).ser.status.used = s.status.used + out.length := by
    rw [← same] at small ⊢
    exact wrap32_of_lt small
  have data : (s.emit (.escape src)).ser.buffer.data =
      (s.buffer.data.storeAll s.status.used out).storeAll (s.status.used + out.length + 1) [0] := by
    rw [← same]
    rfl
  refine ⟨rfl, ?_, by omega, fun room => ?_⟩
  · rw [data, storeAll_length, storeAll_length]
  · rw [data, storeAll_inside, storeAll_inside]
    · rw [cells]
      omega
    · rw [storeAll_length, cells, length_singleton]
      omega

lemma print_grows (cells : s.buffer.data.cells.length = s.buffer.size)
    (below : s.status.used + text.length < 4294967296) (success : (s.emit (.print text)).rc = 0) :
    Grows text.length 0 s (s.emit (.print text)).ser := by
  simp only [Serializer.emit] at success ⊢
  split at success
  · exact absurd success (by decide : (-1 : Int) ≠ 0)
  · next fits =>
    rw [if_neg fits]
    have room : s.buffDiff ≠ 0 := by omega
    have whole : text.take (s.buffDiff - 1) = text := take_of_length_le (by omega)
    simp only [snprintfAt, if_neg room, whole]
    refine ⟨rfl, storeAll_length _ _ _, le_of_eq (wrap32_of_lt below).symm, ?_⟩
    intro inside
    have used : s.status.used + text.length ≤ s.buffer.size := by
      have moved : wrap32 (s.status.used + text.length) ≤ s.buffer.size := inside
      rwa [wrap32_of_lt below] at moved
    have diff := buffDiff_eq s
    rw [if_pos (by omega)] at diff
    apply storeAll_inside _ _ _
    rw [cells, length_append, length_singleton]
    omega

lemma emit_grows {chunk : Chunk} (cells : s.buffer.data.cells.length = s.buffer.size)
    (below : s.status.used + chunkMost chunk < 4294967296) (success : (s.emit chunk).rc = 0) :
    Grows (chunkLeast chunk) (chunkSlack chunk) s (s.emit chunk).ser := by
  cases chunk with
  | print text => exact print_grows cells below success
  | escape src => exact escape_grows cells below
  | put byte => exact (append_grows [byte] cells below).1
  | copy bytes => exact (append_grows bytes cells below).1

def chunksLeast (chunks : List Chunk) : Nat := (chunks.map chunkLeast).sum

def chunksSlack : List Chunk → Nat
  | [] => 0
  | chunk :: rest => max (chunkSlack chunk - chunksLeast rest) (chunksSlack rest)

lemma emitAll_grows {chunks : List Chunk} (cells : s.buffer.data.cells.length = s.buffer.size)
    (below : s.status.used + chunksMost chunks < 4294967296)
    (success : (Serializer.emitAll chunks s).rc = 0) :
    Grows (chunksLeast chunks) (chunksSlack chunks) s (Serializer.emitAll chunks s).ser ∧
      (Serializer.emitAll chunks s).ser.status.used ≤ s.status.used + chunksMost chunks := by
  induction chunks generalizing s with
  | nil => exact ⟨⟨rfl, rfl, le_refl _, fun _ => rfl⟩, le_refl _⟩
  | cons chunk rest ih =>
    have total : chunksMost (chunk :: rest) = chunkMost chunk + chunksMost rest := by
      simp [chunksMost]
    have least : chunksLeast (chunk :: rest) = chunkLeast chunk + chunksLeast rest := by
      simp [chunksLeast]
    rw [Serializer.emitAll] at success ⊢
    obtain ⟨first, later, same⟩ := andThen_success success
    rw [same]
    have here := emit_grows cells (by omega) first
    obtain ⟨count, most, used⟩ := emit_used first
    have moved : (s.emit chunk).ser.status.used = s.status.used + count :=
      used.trans (wrap32_of_lt (by omega))
    obtain ⟨there, bound⟩ := ih (by rw [here.cells, here.size, cells]) (by omega) later
    rw [least]
    refine ⟨here.trans there ?_ ?_, by omega⟩
    · rw [chunksSlack]
      omega
    · rw [chunksSlack]
      omega

lemma putAll_grows (bytes : Bytes) (cells : s.buffer.data.cells.length = s.buffer.size)
    (below : s.status.used + bytes.length < 4294967296) :
    Grows bytes.length 0 s (putAll bytes s) ∧
      (putAll bytes s).status.used = s.status.used + bytes.length := by
  induction bytes generalizing s with
  | nil => exact ⟨⟨rfl, rfl, Nat.le_refl _, fun _ => rfl⟩, rfl⟩
  | cons byte rest ih =>
    rw [length_cons] at below ⊢
    have small : s.status.used + 1 < 4294967296 := by omega
    have one : (s.put byte).status.used = s.status.used + 1 := wrap32_of_lt small
    have here : Grows 1 0 s (s.put byte) :=
      (append_grows [byte] cells (by rw [length_singleton]; omega)).1
    obtain ⟨there, used⟩ := @ih (s.put byte) (by rw [here.cells, here.size, cells]) (by omega)
    have both := here.trans there (Nat.zero_le _) (Nat.le_refl 0)
    have last : (putAll (byte :: rest) s).status.used = s.status.used + (rest.length + 1) :=
      used.trans (by omega)
    exact ⟨⟨both.size, both.cells, Nat.le_of_eq last.symm, both.stray⟩, last⟩

/-- The opening is written over the characters it takes back, or within two bytes
of the offset. -/
lemma pre_inside (framed : Framed multiline s)
    (covered : closers multiline s.status.flags ≤ s.status.used)
    (room : s.status.used + 2 ≤ s.buffer.size) :
    (serializeJsonPre s).buffer.size = s.buffer.size ∧
      (serializeJsonPre s).buffer.data.cells.length = s.buffer.size ∧
      (serializeJsonPre s).buffer.data.stray = s.buffer.data.stray ∧
      (serializeJsonPre s).status.used ≤ s.status.used + 2 := by
  have size := framed.size
  have short := opening_length multiline s.status.flags
  have shaped : Shaped s := ⟨framed.cells, size, by omega⟩
  obtain ⟨used, -, buffer⟩ := backBy_lost (closers multiline s.status.flags) shaped covered
  rw [serializeJsonPre_eq s framed.outer, framed.mode]
  generalize backBy (closers multiline s.status.flags) s = r at used buffer
  have cells : r.buffer.data.cells.length = r.buffer.size := by rw [buffer, framed.cells]
  obtain ⟨grows, last⟩ := @putAll_grows
    { r with status.flags := openedFlags s.status.flags } (opening multiline s.status.flags) cells
    (by dsimp only; omega)
  have bound : r.status.used + (opening multiline s.status.flags).length ≤ s.status.used + 2 := by
    omega
  refine ⟨?_, ?_, ?_, le_trans (le_of_eq last) bound⟩
  · rw [grows.size, buffer]
  · rw [grows.cells, cells, buffer]
  · have inside : r.status.used + (opening multiline s.status.flags).length + 0 ≤ r.buffer.size := by
      rw [buffer]
      omega
    have same := grows.stray (by rw [last]; exact inside)
    rw [same, buffer]

lemma putChecked_inside (cells : s.buffer.data.cells.length = s.buffer.size)
    (size : s.buffer.size < 4294967296) (success : (s.putChecked byte).rc = 0) :
    s.status.used < s.buffer.size ∧ Grows 1 0 s (s.putChecked byte).ser ∧
      (s.putChecked byte).ser.status.used ≤ s.buffer.size := by
  unfold Serializer.putChecked at success ⊢
  split at success
  · exact absurd success (by decide : (-1 : Int) ≠ 0)
  · next free =>
    rw [if_neg free]
    obtain ⟨grows, used⟩ := append_grows [byte] cells (by rw [length_singleton]; omega)
    have inside : (s.append [byte]).status.used ≤ s.buffer.size := by
      rw [used, length_singleton]
      omega
    exact ⟨Nat.lt_of_not_le free, grows, inside⟩

lemma putIf_inside (cells : s.buffer.data.cells.length = s.buffer.size)
    (size : s.buffer.size < 4294967296) (success : (putIf present byte s).rc = 0) :
    Grows 0 0 s (putIf present byte s).ser ∧
      (s.status.used ≤ s.buffer.size → (putIf present byte s).ser.status.used ≤ s.buffer.size) := by
  cases present with
  | false => exact ⟨⟨rfl, rfl, le_refl _, fun _ => rfl⟩, id⟩
  | true =>
    obtain ⟨-, grows, inside⟩ := putChecked_inside cells size success
    have used := grows.used
    exact ⟨⟨grows.size, grows.cells, Nat.le_of_succ_le used, grows.stray⟩, fun _ => inside⟩

lemma closeObject_inside (outer : s.innerJson = false)
    (cells : s.buffer.data.cells.length = s.buffer.size) (size : s.buffer.size < 4294967296)
    (success : (closeObject s).rc = 0) :
    s.status.used < s.buffer.size ∧ Grows 1 0 s (closeObject s).ser ∧
      (closeObject s).ser.status.used ≤ s.buffer.size := by
  have checked : closeObject s = (s.putChecked 0x7D).andThen fun r =>
      ok { r with status.flags.ceob := false } := by
    unfold closeObject Serializer.putChecked
    split
    · rfl
    · simp only [outer, Bool.not_false, Bool.true_or, if_true]
      rfl
  rw [checked] at success ⊢
  obtain ⟨put, -, same⟩ := andThen_success success
  rw [same]
  obtain ⟨free, grows, inside⟩ := putChecked_inside cells size put
  exact ⟨free, ⟨grows.size, grows.cells, grows.used, grows.stray⟩, inside⟩

/-- Closing characters that are written lie inside, and so does the offset before
them. -/
lemma post_inside (outer : s.innerJson = false)
    (cells : s.buffer.data.cells.length = s.buffer.size)
    (size : s.buffer.size < 4294967296) (success : (serializeJsonPost s).rc = 0) :
    (serializeJsonPost s).ser.buffer.size = s.buffer.size ∧
      (serializeJsonPost s).ser.buffer.data.stray = s.buffer.data.stray ∧
      s.status.used < s.buffer.size ∧
      (serializeJsonPost s).ser.status.used ≤ s.buffer.size := by
  rw [serializeJsonPost_eq] at success ⊢
  obtain ⟨first, success, same⟩ := andThen_success success
  rw [same]
  obtain ⟨second, success, same⟩ := andThen_success success
  rw [same]
  obtain ⟨third, -, same⟩ := andThen_success success
  rw [same]
  have print := (@footprint_putIf 0 0 s (!s.multilineJsonArray && s.status.flags.list) 0x5D
    (.inl rfl)).1
  obtain ⟨list, -⟩ := putIf_inside cells size first
  generalize (putIf (!s.multilineJsonArray && s.status.flags.list) 0x5D s).ser = a at *
  have outer' : a.innerJson = false := by rw [print.frame]; exact outer
  obtain ⟨free, object, inside⟩ := closeObject_inside outer' (by rw [list.cells, list.size, cells])
    (by rw [list.size]; exact size) second
  generalize (closeObject a).ser = b at *
  obtain ⟨array, last⟩ := putIf_inside
    (by rw [object.cells, object.size, list.cells, list.size, cells])
    (by rw [object.size, list.size]; exact size) third
  have one := list.used
  have size1 := list.size
  have size2 := object.size
  have inside' := last (by omega)
  refine ⟨array.size.trans (object.size.trans list.size), ?_, by omega, ?_⟩
  · show (putIf _ 0x5D b).ser.buffer.data.stray = _
    rw [array.stray (by omega), object.stray (by omega), list.stray (by omega)]
  · show (putIf _ 0x5D b).ser.status.used ≤ _
    omega

end

section
variable {multiline : Bool} {s : Serializer}

/-- Stayed inside: no stray store, and the offset within the allocation. -/
structure Inbounds (s t : Serializer) : Prop where
  stray : t.buffer.data.stray = s.buffer.data.stray
  used : t.status.used ≤ t.buffer.size

/-- What is written between an opening and a closing lies inside, if the closing
was written and either the last string ends early or space was reserved for it. -/
lemma between_inside (framed : Framed multiline s) (chunks : List Chunk)
    (change : StatusFlags → StatusFlags)
    (shape : o = (Serializer.emitAll chunks (serializeJsonPre s)).andThen fun r =>
      serializeJsonPost { r with
        status := ⟨change r.status.flags, r.status.used, r.status.headerUsed⟩ })
    (covered : closers multiline s.status.flags ≤ s.status.used)
    (room : s.status.used + 2 ≤ s.buffer.size)
    (below : s.buffer.size + chunksMost chunks < 4294967296) (slack : chunksSlack chunks ≤ 1 ∨
      s.status.used + 2 + chunksMost chunks + chunksSlack chunks ≤ s.buffer.size)
    (success : o.rc = 0) : Inbounds s o.ser := by
  subst shape
  obtain ⟨written, closed, result⟩ := andThen_success success
  rw [result]
  obtain ⟨size, cells, stray, used⟩ := pre_inside framed covered room
  have outer : (serializeJsonPre s).innerJson = false := by
    rw [(@footprint_pre 0 0 s framed.outer (.inl rfl)).1.frame]
    exact framed.outer
  generalize serializeJsonPre s = p at *
  obtain ⟨grows, most⟩ := emitAll_grows (cells.trans size.symm) (by omega) written
  have outer' : (Serializer.emitAll chunks p).ser.innerJson = false := by
    rw [(emitAll_print p).frame]
    exact outer
  generalize (Serializer.emitAll chunks p).ser = e at *
  have size' := grows.size
  have cells' : e.buffer.data.cells.length = e.buffer.size := by
    rw [grows.cells, size', cells, size]
  have small : e.buffer.size < 4294967296 := by rw [size', size]; exact framed.size
  obtain ⟨last, stray', free, inside⟩ := post_inside (s := { e with
    status := ⟨change e.status.flags, e.status.used, e.status.headerUsed⟩ }) outer' cells' small closed
  dsimp only at stray' free
  refine ⟨?_, last ▸ inside⟩
  rw [stray', grows.stray (by omega), stray]

variable (key : JsonKey)

lemma keyMost_chunks : chunksMost key.chunks ≤ key.most := by
  cases key with
  | number key =>
    have digits := @decimal_length_le 10 key.toNat (by decide)
      (lt_trans key.toNat_lt (by decide))
    simp only [JsonKey.chunks, uint32Key, chunksMost, map_cons, map_nil, chunkMost,
      JsonKey.most, sum_cons, sum_nil, cons_append, length_cons,
      length_append, length_nil]
    omega
  | name bytes =>
    simp only [JsonKey.chunks, chunksMost, map_cons, map_nil, chunkMost, JsonKey.most,
      sum_cons, sum_nil]
    omega

lemma keySlack (value : JsonValue) :
    chunksSlack (key.chunks ++ [value.chunk]) ≤ max 1 (chunkSlack value.chunk) := by
  cases key with
  | number key =>
    simp only [JsonKey.chunks, uint32Key, singleton_append, chunksSlack, chunkSlack]
    omega
  | name bytes =>
    simp only [JsonKey.chunks, cons_append, nil_append, chunksSlack, chunkSlack,
      chunksLeast, map_cons, map_nil, chunkLeast, sum_cons, sum_nil]
    omega

/-- In a list the key is left out, which takes no more space. -/
lemma listed_chunks {list : Bool} (value : JsonValue) :
    chunksMost ((if list then [] else key.chunks) ++ [value.chunk]) ≤
        chunksMost (key.chunks ++ [value.chunk]) ∧
      chunksSlack ((if list then [] else key.chunks) ++ [value.chunk]) ≤
        max 1 (chunkSlack value.chunk) := by
  cases list with
  | false => exact ⟨Nat.le_refl _, keySlack key value⟩
  | true =>
    rw [chunksMost_append, chunksMost_append]
    refine ⟨Nat.add_le_add_right (Nat.zero_le _) _, ?_⟩
    simp only [if_true, nil_append, chunksSlack, chunksLeast, map_nil, sum_nil]
    omega

lemma item_inside (framed : Framed multiline s)
    (covered : closers multiline s.status.flags ≤ s.status.used)
    (room : s.status.used + (JsonForm.item key value).least ≤ s.buffer.size)
    (below : s.buffer.size + (JsonForm.item key value).most < 4294967296)
    (success : ((JsonForm.item key value).body s).rc = 0) :
    Inbounds s ((JsonForm.item key value).body s).ser := by
  rw [JsonForm.body] at success ⊢
  obtain ⟨written, -, result⟩ := andThen_success success
  rw [result]
  rw [jsonItem] at written ⊢
  obtain ⟨shorter, slack⟩ := listed_chunks key value
  have keyed := keyMost_chunks key
  have total := chunksMost_append key.chunks [value.chunk]
  rw [JsonForm.most] at below
  have inside := between_inside framed _ id rfl covered ?_
    (Nat.lt_of_le_of_lt (Nat.add_le_add_left shorter _) below) ?_ written
  · exact ⟨inside.stray, inside.used⟩
  · cases value with
    | string bytes =>
      simp only [JsonForm.least] at room
      omega
    | _ => exact room
  · cases value with
    | string bytes =>
      right
      have own : chunksMost [(JsonValue.string bytes).chunk] = 2 * bytes.length + 2 := by
        simp [chunksMost, chunkMost, JsonValue.chunk]
      have two : chunkSlack (JsonValue.string bytes).chunk = 2 := rfl
      simp only [JsonForm.least] at room
      omega
    | printed text => exact .inl slack
    | raw bytes => exact .inl slack

lemma mark_inside (name mark : Bytes) (three : mark.length = 3) (framed : Framed multiline s)
    (change : StatusFlags → StatusFlags)
    (shape : o = (Serializer.emitAll [.escape name, .print mark] (serializeJsonPre s)).andThen
      fun r => serializeJsonPost { r with
        status := ⟨change r.status.flags, r.status.used, r.status.headerUsed⟩ })
    (covered : closers multiline s.status.flags ≤ s.status.used)
    (room : s.status.used + 2 ≤ s.buffer.size)
    (below : s.buffer.size + chunksMost [.escape name, .print mark] < 4294967296)
    (success : o.rc = 0) : Inbounds s o.ser := by
  refine between_inside framed _ change shape covered room below (.inl ?_) success
  simp only [chunksSlack, chunkSlack, chunksLeast, map_cons, map_nil, chunkLeast,
    sum_cons, sum_nil, three]
  omega

lemma endOfRecord_inside (framed : Framed multiline s)
    (room : s.status.used + 2 ≤ s.buffer.size) :
    Inbounds s (JsonForm.endOfRecord.body s).ser := by
  have size := framed.size
  have cells := framed.cells
  have one : wrap32 (s.status.used + 1) = s.status.used + 1 := wrap32_of_lt (by omega)
  simp only [JsonForm.body, endOfRecordJson, ok]
  split
  · have used : (s.put 0x0A).status.used = s.status.used + 1 := one
    refine ⟨?_, ?_⟩
    · show ((s.buffer.data.storeAll s.status.used [0x0A]).storeAll
        (s.put 0x0A).status.used [0]).stray = _
      rw [used, storeAll_inside, storeAll_inside]
      · rw [cells, length_singleton]
        omega
      · rw [storeAll_length, cells, length_singleton]
        omega
    · show (s.put 0x0A).status.used ≤ s.buffer.size
      omega
  · split
    · exact ⟨rfl, show s.status.used ≤ s.buffer.size by omega⟩
    · have diff : (s.storeAll 0 [0x5B]).buffDiff = s.buffer.size - s.status.used :=
        sub32_of_le (by omega : s.status.used ≤ s.buffer.size)
      have some : (s.storeAll 0 [0x5B]).buffDiff ≠ 0 := by omega
      have whole : [(0x5D : UInt8)].take ((s.storeAll 0 [0x5B]).buffDiff - 1) = [0x5D] :=
        take_of_length_le (by rw [length_singleton]; omega)
      refine ⟨?_, ?_⟩
      · simp only [snprintfAt, if_neg some, whole]
        show ((s.buffer.data.storeAll 0 [0x5B]).storeAll s.status.used ([0x5D] ++ [0])).stray = _
        rw [storeAll_inside, storeAll_inside]
        · rw [cells, length_singleton]
          omega
        · rw [storeAll_length, cells]
          exact room
      · show wrap32 (s.status.used + 1) ≤ s.buffer.size
        omega

/-- Once the space is reserved an operation that succeeds stays inside. -/
lemma body_inside (form : JsonForm) (framed : Framed multiline s)
    (covered : form.back multiline s.status.flags ≤ s.status.used)
    (inside : s.status.used ≤ s.buffer.size) (room : s.status.used + form.least ≤ s.buffer.size)
    (below : s.buffer.size + form.most < 4294967296) (success : (form.body s).rc = 0) :
    Inbounds s (form.body s).ser := by
  cases form with
  | item key value => exact item_inside key framed covered room below success
  | startOfList name =>
    exact mark_inside name [0x3A, 0x20, 0x5B] rfl framed
      (fun flags => { flags with list := true, sol := true }) rfl covered room below success
  | startOfBlock name =>
    rw [JsonForm.body, ← andThen_assoc] at success ⊢
    obtain ⟨written, -, result⟩ := andThen_success success
    rw [result]
    have inside := mark_inside name [0x3A, 0x20, 0x7B] rfl framed id rfl covered room below written
    exact ⟨inside.stray, inside.used⟩
  | endOfList => exact ⟨rfl, inside⟩
  | endOfBlock =>
    obtain ⟨size, stray, -, used⟩ := post_inside (s := { s with
      status.flags.sob := false, status.flags.ceob := true }) framed.outer framed.cells framed.size
      success
    exact ⟨stray, size ▸ used⟩
  | endOfRecord => exact endOfRecord_inside framed room

end

variable {multiline : Bool} {s : Serializer}

/-- A buffer that was kept or made larger, with its bytes. -/
structure Enlarged (needed : Nat) (s t : Serializer) : Prop where
  same : t = { s with buffer := t.buffer }
  cells : t.buffer.data.cells.length = t.buffer.size
  stray : t.buffer.data.stray = s.buffer.data.stray
  grown : s.buffer.size ≤ t.buffer.size
  bound : t.buffer.size ≤ s.buffer.size + needed + 1028
  kept : ∀ low ≤ s.buffer.size, t.buffer.data.cells.take low = s.buffer.data.cells.take low

/-- Some way below `2 ^ 32` the buffer never shrinks. -/
lemma reserve_enlarged (heap : Heap) (cells : s.buffer.data.cells.length = s.buffer.size)
    (below : s.buffer.size + 2097152 ≤ 4294967296) (offset : s.status.used + 1048576 ≤ 4294967296)
    (modest : needed ≤ 1048576) :
    Enlarged needed s (s.reserve heap needed).ser ∧
      ((s.reserve heap needed).rc = 0 → s.status.used ≤ s.buffer.size →
        s.status.used + needed ≤ (s.reserve heap needed).ser.buffer.size) := by
  have diff := buffDiff_eq s
  have still : Enlarged needed s s := ⟨rfl, cells, rfl, le_refl _, by omega, fun _ _ => rfl⟩
  by_cases success : (s.reserve heap needed).rc = 0
  · rcases reserve_cases success with ⟨loose, result⟩ | ⟨tight, newSize, rounded, result⟩
    · rw [result]
      refine ⟨still, fun _ inside => ?_⟩
      rw [if_pos inside] at diff
      show s.status.used + needed ≤ s.buffer.size
      omega
    · have inside : s.status.used ≤ s.buffer.size := by
        by_contra outside
        rw [if_neg outside] at diff
        omega
      rw [if_pos inside] at diff
      have grown := extendedSize_cases s.buffer (needed - s.buffDiff) (by omega) (by omega)
      rw [← rounded] at grown
      rw [result]
      refine ⟨⟨rfl, resize_length _ _ _, rfl, ?_, ?_, ?_⟩, fun _ _ => ?_⟩
      · show s.buffer.size ≤ newSize
        omega
      · show newSize ≤ _
        omega
      · intro low small
        exact resize_take _ _ _ _ (cells ▸ small) (by omega)
      · show _ ≤ newSize
        omega
  · rw [reserve_failed success]
    exact ⟨still, fun granted => absurd granted success⟩

lemma reserve_framed (heap : Heap) (needed : Nat) (framed : Framed multiline s) :
    Framed multiline (s.reserve heap needed).ser := by
  unfold Serializer.reserve extendSerializerBuffer
  split
  · dsimp only
    split
    · next buffer grown =>
      split at grown
      · cases grown
        exact ⟨resize_length _ _ _, extendedSize_lt _ _, framed.fmt, framed.mode, framed.outer⟩
      · cases grown
    · exact framed
  · exact framed

lemma Framed.footprint (framed : Framed multiline s) (print : Footprint low s t) :
    Framed multiline t := by
  have size := print.size
  refine ⟨print.length.trans (framed.cells.trans size.symm), size ▸ framed.size, ?_, ?_, ?_⟩
  · rw [print.frame]; exact framed.fmt
  · rw [print.frame]; exact framed.mode
  · rw [print.frame]; exact framed.outer

variable {f : Serializer → Outcome} {form : JsonForm} {heap : Heap}

/-- An operation keeps the frame whatever it returns. -/
lemma form_framed (takes : TakesForm heap f form) (framed : Framed multiline s) :
    Framed multiline (f s).ser := by
  obtain ⟨needed, -, -, same⟩ := takes s framed.fmt
  rw [same]
  have reserved := reserve_framed heap needed framed
  unfold Outcome.andThen
  split
  · have bracketed : Framed multiline (form.bracketed (s.reserve heap needed).ser) := by
      unfold JsonForm.bracketed
      split
      · exact reserved.footprint (footprint_storeAll _ [0x5B] (le_refl 0))
      · exact reserved
    exact bracketed.footprint (footprint_body reserved.outer (.inl rfl))
  · exact reserved

lemma reserve_stray (heap : Heap) :
    (s.reserve heap needed).ser.buffer.data.stray = s.buffer.data.stray := by
  by_cases success : (s.reserve heap needed).rc = 0
  · rcases reserve_cases success with ⟨-, result⟩ | ⟨-, newSize, -, result⟩
    · rw [result]
      rfl
    · rw [result]
      rfl
  · rw [reserve_failed success]

/-- What an operation stored outside stays on record. -/
lemma form_stray (takes : TakesForm heap f form) (framed : Framed multiline s) :
    s.buffer.data.stray <+: (f s).ser.buffer.data.stray := by
  obtain ⟨needed, -, -, same⟩ := takes s framed.fmt
  have reserved := reserve_framed heap needed framed
  rw [same, ← reserve_stray heap]
  unfold Outcome.andThen
  split
  · have body := (@footprint_body 0 _ form reserved.outer (.inl rfl)).stray
    refine List.IsPrefix.trans ?_ body
    unfold JsonForm.bracketed
    split
    · exact storeAll_stray _ _ _
    · exact prefix_refl _
  · exact prefix_refl _

/-- An operation that returns 0 stays inside, if it finds its offset inside and far
enough behind the start and below `2 ^ 32`. -/
lemma form_inside (takes : TakesForm heap f form)
    (framed : Framed multiline s) (inside : s.status.used ≤ s.buffer.size)
    (covered : form.back multiline s.status.flags ≤ s.status.used)
    (below : s.buffer.size + form.most + 2097152 ≤ 4294967296) (success : (f s).rc = 0) :
    Inbounds s (f s).ser := by
  obtain ⟨needed, least, modest, same⟩ := takes s framed.fmt
  rw [same] at success ⊢
  obtain ⟨granted, returned, result⟩ := andThen_success success
  rw [result]
  obtain ⟨enlarged, room⟩ := reserve_enlarged heap framed.cells (by omega) (by omega) modest
  have room := room granted inside
  have bound := enlarged.bound
  have status : (s.reserve heap needed).ser.status = s.status := by rw [enlarged.same]
  have body := body_inside form (reserve_framed heap needed framed) (by rw [status]; exact covered)
    (by rw [status]; omega) (by rw [status]; omega) (by omega) returned
  exact ⟨body.stray.trans enlarged.stray, body.used⟩

end Ndpi.Refinement
