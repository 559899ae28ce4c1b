import Ndpi.Refinement.JsonText

/-!
# Where the JSON operations write

What a JSON operation leaves alone, whether it succeeds or not: everything below
the text it takes back, the size of its buffer and the configuration. The offset
is a 32-bit number, so all of this holds while it is some way below `2 ^ 32`; at
the bottom of the buffer, where there is nothing below, it holds in any case.
-/
namespace Ndpi.Refinement
open Lib Source.Serialization List Memory

/-- From `s` to `t` no byte below `low` changed, nor anything but the status and
the bytes of the buffer. -/
structure Footprint (low : Nat) (s t : Serializer) : Prop where
  stray : s.buffer.data.stray <+: t.buffer.data.stray
  length : t.buffer.data.cells.length = s.buffer.data.cells.length
  kept : t.buffer.data.cells.take low = s.buffer.data.cells.take low
  frame : t = { s with
    status := t.status, buffer := ⟨s.buffer.initialSize, s.buffer.size, t.buffer.data⟩ }

/-- The offset is at least `low` even if `back` characters are taken back, and can
grow by `room` without a wrap. -/
def Above (low back room : Nat) (s : Serializer) : Prop :=
  low = 0 ∨ low + back ≤ s.status.used ∧ s.status.used + room < 4294967296

section
variable {low back room : Nat} {s t u : Serializer}

lemma Footprint.refl (low : Nat) (s : Serializer) : Footprint low s s :=
  ⟨prefix_refl _, rfl, rfl, rfl⟩

lemma Footprint.trans (first : Footprint low s t) (second : Footprint low t u) :
    Footprint low s u := by
  refine ⟨first.stray.trans second.stray, second.length.trans first.length,
    second.kept.trans first.kept, ?_⟩
  rw [second.frame, first.frame]

section
variable (print : Footprint low s t)
include print

lemma Footprint.clean (clean : Clean t) : Clean s := by
  have stray := print.stray
  rw [Clean] at clean
  rw [clean] at stray
  exact prefix_nil.mp stray

lemma Footprint.size : t.buffer.size = s.buffer.size := by
  rw [print.frame]

lemma Footprint.shaped (shaped : Shaped s) (used : t.status.used < 4294967296) : Shaped t :=
  ⟨print.length.trans (shaped.cells.trans print.size.symm), print.size ▸ shaped.size, used⟩

end

lemma footprint_storeAll (s : Serializer) (bytes : Bytes) (above : low ≤ index) :
    Footprint low s (s.storeAll index bytes) :=
  ⟨storeAll_stray _ _ _, storeAll_length _ _ _,
    storeAll_take _ _ _ _ above, rfl⟩

/-- The status is not part of what is kept. -/
lemma Footprint.withStatus (print : Footprint low s t) (status : SerializerStatus) :
    Footprint low s { t with status := status } := by
  refine ⟨print.stray, print.length, print.kept, ?_⟩
  rw [print.frame]

lemma Above.le (above : Above low back room s) : low ≤ s.status.used := by
  rcases above with rfl | ⟨above, -⟩
  · exact Nat.zero_le _
  · exact Nat.le_trans (Nat.le_add_right _ _) above

lemma Above.mono (above : Above low back room s) (lower : less ≤ back) (shorter : fewer ≤ room) :
    Above low less fewer s := by
  rcases above with bottom | ⟨above, below⟩
  · exact .inl bottom
  · exact .inr ⟨by omega, by omega⟩

lemma Above.advance {count : Nat} (above : Above low back (count + room) s)
    (used : t.status.used = wrap32 (s.status.used + count)) : Above low back room t := by
  rcases above with bottom | ⟨above, below⟩
  · exact .inl bottom
  · have moved : t.status.used = s.status.used + count := used.trans (wrap32_of_lt (by omega))
    exact .inr ⟨by omega, by omega⟩

lemma Above.same (above : Above low back room s) (used : t.status.used = s.status.used) :
    Above low back room t := by
  unfold Above
  rw [used]
  exact above

lemma footprint_takeBack (low : Nat) (s : Serializer) : Footprint low s s.takeBack :=
  (Footprint.refl low s).withStatus _

lemma Above.takeBack (above : Above low (1 + back) room s) : Above low back room s.takeBack := by
  rcases above with bottom | ⟨above, below⟩
  · exact .inl bottom
  · have moved : s.takeBack.status.used = s.status.used - 1 := sub32_of_le (by omega)
    exact .inr ⟨by omega, by omega⟩

lemma footprint_append (bytes : Bytes) (above : low ≤ s.status.used) :
    Footprint low s (s.append bytes) :=
  (footprint_storeAll s bytes above).withStatus _

lemma Above.put {byte : UInt8} (above : Above low back (1 + room) s) :
    Above low back room (s.put byte) := above.advance rfl

lemma footprint_put (above : Above low back room s) :
    Footprint low s (s.put byte) := footprint_append [byte] above.le

end

section

lemma escapeAscii_length (c : UInt8) : (escapeAscii c).length ≤ 2 := by
  unfold escapeAscii
  repeat' split
  all_goals simp

lemma escapeLoop_length (bound : Int) (j : Nat) (src : Bytes) :
    (escapeLoop bound j src).length ≤ 2 * src.length := by
  fun_induction escapeLoop bound j src with
  | case3 j c rest room ascii ih =>
    have first := escapeAscii_length c
    simp only [length_append, length_cons]
    omega
  | _ => simp only [length_cons, length_nil] at *; omega

lemma jsonStringEscape_length (src : Bytes) (bound : Int) :
    (jsonStringEscape src bound).length ≤ 2 * src.length + 2 := by
  have loop := escapeLoop_length bound 1 src
  simp only [jsonStringEscape, cons_append, length_cons, length_append, length_nil]
  omega

/-- How far a write can move the offset. -/
def chunkMost : Chunk → Nat
  | .print text => text.length
  | .escape src => 2 * src.length + 2
  | .put _ => 1
  | .copy bytes => bytes.length

def chunksMost (chunks : List Chunk) : Nat := (chunks.map chunkMost).sum

variable {low room : Nat} {s : Serializer}

lemma footprint_emit (chunk : Chunk) (above : low ≤ s.status.used) :
    Footprint low s (s.emit chunk).ser := by
  cases chunk with
  | print text =>
    have printed : Footprint low s { s with
        buffer.data := snprintfAt s.buffer.data s.status.used s.buffDiff text } := by
      unfold snprintfAt
      split
      · exact .refl low s
      · exact footprint_storeAll s _ above
    simp only [Serializer.emit]
    split
    · exact printed
    · exact printed.withStatus _
  | escape src =>
    have far : low ≤ s.status.used + (jsonStringEscape src (toInt32 s.buffDiff)).length + 1 := by
      omega
    exact ((footprint_storeAll s _ above).trans (footprint_storeAll _ [0] far)).withStatus _
  | put byte => exact footprint_append [byte] above
  | copy bytes => exact footprint_append bytes above

/-- How far a successful write moves it. -/
lemma emit_used {chunk : Chunk} (success : (s.emit chunk).rc = 0) :
    ∃ count, count ≤ chunkMost chunk ∧
      (s.emit chunk).ser.status.used = wrap32 (s.status.used + count) := by
  cases chunk with
  | print text =>
    simp only [Serializer.emit] at success ⊢
    split at success
    · exact absurd success (by decide : (-1 : Int) ≠ 0)
    · next fits =>
      rw [if_neg fits]
      exact ⟨text.length, le_refl _, rfl⟩
  | escape src => exact ⟨_, jsonStringEscape_length src _, rfl⟩
  | put byte => exact ⟨1, le_refl _, rfl⟩
  | copy bytes => exact ⟨bytes.length, le_refl _, rfl⟩

/-- Nothing below `low` is touched, and after a success there is still this room. -/
abbrev Leaves (low room : Nat) (s : Serializer) (o : Outcome) : Prop :=
  Footprint low s o.ser ∧ (o.rc = 0 → Above low 0 room o.ser)

lemma footprint_emitAll {chunks : List Chunk} (above : Above low 0 (chunksMost chunks + room) s) :
    Leaves low room s (Serializer.emitAll chunks s) := by
  induction chunks generalizing s with
  | nil => exact ⟨.refl low s, fun _ => above.mono (le_refl _) (by omega)⟩
  | cons chunk rest ih =>
    have first := footprint_emit chunk above.le
    rw [Serializer.emitAll]
    unfold Outcome.andThen
    split
    · next success =>
      obtain ⟨count, most, used⟩ := emit_used success
      have enough : count + (chunksMost rest + room) ≤ chunksMost (chunk :: rest) + room := by
        simp only [chunksMost, map_cons, sum_cons]
        omega
      obtain ⟨later, after⟩ := ih ((above.mono (le_refl _) enough).advance used)
      exact ⟨first.trans later, after⟩
    · next failure => exact ⟨first, fun success => absurd success failure⟩

lemma footprint_putChecked (above : Above low 0 (1 + room) s) :
    Leaves low room s (s.putChecked byte) := by
  unfold Serializer.putChecked
  split
  · exact ⟨.refl low s, fun success => absurd success (by decide : (-1 : Int) ≠ 0)⟩
  · exact ⟨footprint_put above, fun _ => above.put⟩

lemma footprint_backBy {count : Nat} (above : Above low (count + back) room s) :
    Footprint low s (backBy count s) ∧ Above low back room (backBy count s) := by
  induction count generalizing s with
  | zero => exact ⟨.refl low s, above.mono (by omega) (le_refl _)⟩
  | succ count ih =>
    have shifted : Above low (1 + (count + back)) room s := above.mono (by omega) (le_refl _)
    obtain ⟨rest, after⟩ := ih shifted.takeBack
    exact ⟨(footprint_takeBack low s).trans rest, after⟩

lemma footprint_putAll (bytes : Bytes) (above : Above low 0 (bytes.length + room) s) :
    Footprint low s (putAll bytes s) ∧ Above low 0 room (putAll bytes s) := by
  induction bytes generalizing s with
  | nil => exact ⟨.refl low s, above.mono (le_refl _) (by omega)⟩
  | cons byte rest ih =>
    have shifted : Above low 0 (1 + (rest.length + room)) s :=
      above.mono (le_refl _) (by rw [length_cons]; omega)
    have next : Above low 0 (rest.length + room) (s.put byte) := shifted.put
    obtain ⟨later, after⟩ := ih next
    exact ⟨(footprint_put above).trans later, after⟩

lemma opening_length (multiline : Bool) (flags : StatusFlags) :
    (opening multiline flags).length ≤ 2 := by
  unfold opening
  repeat' split
  all_goals simp

/-- The opening takes back no more than the closing characters. -/
lemma footprint_pre (outer : s.innerJson = false)
    (above : Above low (closers s.multilineJsonArray s.status.flags) (2 + room) s) :
    Footprint low s (serializeJsonPre s) ∧ Above low 0 room (serializeJsonPre s) := by
  have short := opening_length s.multilineJsonArray s.status.flags
  obtain ⟨back, lower⟩ := footprint_backBy
    (above.mono (le_of_eq (add_zero _)) (le_refl _))
  have flagged := lower.same (t := { backBy (closers s.multilineJsonArray s.status.flags) s with
    status.flags := openedFlags s.status.flags }) rfl
  obtain ⟨put, after⟩ := footprint_putAll (opening s.multilineJsonArray s.status.flags)
    (flagged.mono (le_refl _) (by omega : _ + room ≤ _))
  rw [serializeJsonPre_eq s outer]
  exact ⟨(back.withStatus _).trans put, after⟩

lemma footprint_putIf (present : Bool) (byte : UInt8) (above : Above low 0 (1 + room) s) :
    Leaves low room s (putIf present byte s) := by
  cases present with
  | false => exact ⟨.refl low s, fun _ => above.mono (le_refl _) (by omega)⟩
  | true => exact footprint_putChecked above

lemma footprint_closeObject (above : Above low 0 (1 + room) s) :
    Leaves low room s (closeObject s) := by
  unfold closeObject
  split
  · exact ⟨.refl low s, fun success => absurd success (by decide : (-1 : Int) ≠ 0)⟩
  · split
    · exact ⟨(footprint_put above).withStatus _, fun _ => above.put.same rfl⟩
    · exact ⟨.refl low s, fun _ => above.mono (le_refl _) (by omega)⟩

variable {rest : Serializer → Outcome}

/-- A part that keeps the bottom of the buffer, and the rest after it. -/
lemma footprint_andThen (first : Leaves low room s o)
    (later : Above low 0 room o.ser → Footprint low o.ser (rest o.ser).ser) :
    Footprint low s (o.andThen rest).ser := by
  unfold Outcome.andThen
  split
  · next success => exact first.1.trans (later (first.2 success))
  · exact first.1

lemma footprint_thenFlags {o : Outcome} (first : Footprint low s o.ser)
    (later : ∀ r, Footprint low r (rest r).ser) :
    Footprint low s (o.andThen rest).ser := by
  unfold Outcome.andThen
  split
  · exact first.trans (later _)
  · exact first

lemma footprint_post (above : Above low 0 3 s) : Footprint low s (serializeJsonPost s).ser := by
  have above : Above low 0 (1 + (1 + (1 + 0))) s := above
  rw [serializeJsonPost_eq]
  refine footprint_andThen (footprint_putIf _ 0x5D above) fun above => ?_
  refine footprint_andThen (footprint_closeObject above) fun above => ?_
  refine footprint_andThen (footprint_putIf _ 0x5D above) fun _ => ?_
  exact (Footprint.refl low _).withStatus _

/-- How far the pieces of a form can move the offset. -/
def JsonForm.most : JsonForm → Nat
  | .item key value => chunksMost (key.chunks ++ [value.chunk])
  | .startOfList name => chunksMost [.escape name, .print [0x3A, 0x20, 0x5B]]
  | .startOfBlock name => chunksMost [.escape name, .print [0x3A, 0x20, 0x7B]]
  | .endOfList | .endOfBlock | .endOfRecord => 0

/-- The characters an operation of this form takes back before it writes. -/
def JsonForm.back (multiline : Bool) (flags : StatusFlags) : JsonForm → Nat
  | .item _ _ | .startOfList _ | .startOfBlock _ => closers multiline flags
  | .endOfList | .endOfBlock | .endOfRecord => 0

/-- The first end of a record on a JSON array writes to the start of the buffer. -/
def JsonForm.bracketed (form : JsonForm) (s : Serializer) : Serializer :=
  if form = .endOfRecord ∧ s.multilineJsonArray = false ∧ s.status.flags.array = false then
    s.storeAll 0 [0x5B]
  else s

lemma chunksMost_append (first rest : List Chunk) :
    chunksMost (first ++ rest) = chunksMost first + chunksMost rest := by
  rw [chunksMost, map_append, sum_append]
  rfl

lemma footprint_between (outer : s.innerJson = false) {chunks : List Chunk}
    (above : Above low (closers s.multilineJsonArray s.status.flags)
      (2 + (chunksMost chunks + 3)) s)
    (later : ∀ r, Above low 0 3 r → Footprint low r (rest r).ser) :
    Footprint low s ((Serializer.emitAll chunks (serializeJsonPre s)).andThen rest).ser := by
  obtain ⟨opened, above⟩ := footprint_pre outer above
  have emitted := footprint_emitAll above
  exact opened.trans (footprint_andThen emitted fun above => later _ above)

/-- Once the space is reserved, an operation keeps what lies below the characters
it takes back, but for the bracket of the array. -/
lemma footprint_body {form : JsonForm} (outer : s.innerJson = false)
    (above : Above low (form.back s.multilineJsonArray s.status.flags) (2 + (form.most + 3)) s) :
    Footprint low (form.bracketed s) (form.body s).ser := by
  have flagged : ∀ (r : Serializer) (status : SerializerStatus), Footprint low r
      { r with status := status } := fun r status => (Footprint.refl low r).withStatus status
  have post : ∀ (r : Serializer) (flags : StatusFlags), Above low 0 3 r → Footprint low r
      (serializeJsonPost { r with status := ⟨flags, r.status.used, r.status.headerUsed⟩ }).ser :=
    fun r flags above => (flagged r _).trans (footprint_post (above.same rfl))
  cases form with
  | item key value =>
    rw [JsonForm.bracketed, if_neg (by simp), JsonForm.body, jsonItem]
    have enough : chunksMost ((if (serializeJsonPre s).status.flags.list then [] else key.chunks) ++
        [value.chunk]) ≤ chunksMost (key.chunks ++ [value.chunk]) := by
      rw [chunksMost_append, chunksMost_append]
      split
      · exact Nat.add_le_add_right (Nat.zero_le _) _
      · exact Nat.le_refl _
    have written := footprint_between outer
      (above.mono (Nat.le_refl _) (Nat.add_le_add_left (Nat.add_le_add_right enough 3) 2))
      fun r above => footprint_post above
    exact footprint_thenFlags written fun r => flagged r _
  | startOfList name =>
    rw [JsonForm.bracketed, if_neg (by simp), JsonForm.body]
    exact footprint_between outer above fun r above => post r _ above
  | startOfBlock name =>
    rw [JsonForm.bracketed, if_neg (by simp), JsonForm.body]
    exact footprint_between outer above fun r above =>
      footprint_thenFlags (footprint_post above) fun r => flagged r _
  | endOfList =>
    rw [JsonForm.bracketed, if_neg (by simp), JsonForm.body]
    exact flagged s _
  | endOfBlock =>
    rw [JsonForm.bracketed, if_neg (by simp), JsonForm.body]
    exact post s _ (above.mono (Nat.zero_le _) (by omega))
  | endOfRecord =>
    have here := above.le
    simp only [JsonForm.bracketed, JsonForm.body, endOfRecordJson, ok, true_and]
    by_cases multiline : s.multilineJsonArray = true
    · rw [if_neg (by simp [multiline]), if_pos multiline]
      have put : Above low 0 1 s := above.mono (Nat.zero_le _) (by omega)
      have next : Above low 0 0 (s.put 0x0A) := put.put
      exact ((footprint_put above).trans (footprint_storeAll _ [0] next.le)).withStatus _
    · rw [if_neg multiline]
      by_cases array : s.status.flags.array = true
      · rw [if_neg (by simp [array]), if_pos array]
        exact flagged s _
      · rw [if_pos ⟨Bool.eq_false_iff.mpr multiline, Bool.eq_false_iff.mpr array⟩, if_neg array]
        have printed : Footprint low (s.storeAll 0 [0x5B]) { s.storeAll 0 [0x5B] with
            buffer.data := snprintfAt (s.storeAll 0 [0x5B]).buffer.data s.status.used
              (s.storeAll 0 [0x5B]).buffDiff [0x5D] } := by
          unfold snprintfAt
          split
          · exact .refl low _
          · exact footprint_storeAll _ _ here
        exact printed.withStatus _

end
end Ndpi.Refinement
