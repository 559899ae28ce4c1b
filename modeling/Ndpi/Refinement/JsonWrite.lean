import Ndpi.Refinement.JsonFootprint
import Ndpi.Refinement.Run

/-!
# JSON operations work on the text

The buffer of a JSON serializer follows the machine of `JsonText`: a call that
returns 0 without a stray store takes the text and the flags one step further.
The one way out is an end of record that writes nothing but makes the buffer
grow past `2 ^ 32`: the buffer shrinks under the text, and every later call that
writes goes outside.
-/
namespace Ndpi.Refinement
open Lib Source.Serialization List Memory

/-- The buffer holds this text with these flags. -/
structure Shows (multiline : Bool) (s : Serializer) (t : JsonText) : Prop where
  sound : Sound s
  fmt : s.fmt = .json
  mode : s.multilineJsonArray = multiline
  outer : s.innerJson = false
  flags : s.status.flags = t.flags
  text : s.text = t.text

section
variable {multiline : Bool} {s : Serializer} {t : JsonText}

variable (shows : Shows multiline s t)
include shows

lemma Shows.length : t.text.length = s.status.used := by
  rw [← shows.text, shows.sound.text_length]

lemma Shows.takeBack (some : 1 ≤ t.text.length) :
    Shows multiline s.takeBack ⟨t.flags, t.text.take (t.text.length - 1)⟩ := by
  have length := shows.length
  have inside := shows.sound.inside
  have size := shows.sound.size
  have used : s.takeBack.status.used = s.status.used - 1 := sub32_of_le (length ▸ some)
  refine ⟨⟨⟨shows.sound.cells, size, ?_⟩, ?_⟩, shows.fmt, shows.mode, shows.outer, shows.flags, ?_⟩
  · rw [used]
    omega
  · rw [used]
    exact Nat.le_trans (Nat.sub_le _ _) inside
  · have shorter : s.takeBack.text = s.text.take (s.status.used - 1) := by
      rw [Serializer.text, Serializer.text, used, take_take, Nat.min_eq_left (Nat.sub_le _ _)]
      rfl
    rw [shorter, shows.text, length]

lemma Shows.withFlags (flags : StatusFlags) :
    Shows multiline { s with status := ⟨flags, s.status.used, s.status.headerUsed⟩ }
      ⟨flags, t.text⟩ :=
  ⟨⟨⟨shows.sound.cells, shows.sound.size, shows.sound.used⟩, shows.sound.inside⟩, shows.fmt,
    shows.mode, shows.outer, rfl, shows.text⟩

lemma Shows.mapFlags (change : StatusFlags → StatusFlags) :
    Shows multiline { s with
      status := ⟨change s.status.flags, s.status.used, s.status.headerUsed⟩ }
      ⟨change t.flags, t.text⟩ := by
  rw [← shows.flags]
  exact shows.withFlags _

lemma Shows.append (clean : Clean (s.append bytes)) :
    Shows multiline (s.append bytes) ⟨t.flags, t.text ++ bytes⟩ := by
  obtain ⟨-, after, text⟩ := append_spec shows.sound clean
  exact ⟨after, shows.fmt, shows.mode, shows.outer, shows.flags, text.trans (shows.text ▸ rfl)⟩

/-- A store behind the text does not show. -/
lemma Shows.storeAll (bytes : Bytes) (behind : s.status.used ≤ index) :
    Shows multiline (s.storeAll index bytes) t := by
  refine ⟨⟨shows.sound.toShaped.storeAll _ _, shows.sound.inside⟩, shows.fmt, shows.mode,
    shows.outer, shows.flags, ?_⟩
  rw [← shows.text]
  exact storeAll_take _ _ _ _ behind

end

section
variable {multiline : Bool} {s : Serializer} {t : JsonText}

variable (shows : Shows multiline s t)
include shows

lemma Shows.backBy (count : Nat) (enough : count ≤ t.text.length) :
    Shows multiline (backBy count s) ⟨t.flags, t.text.take (t.text.length - count)⟩ := by
  induction count generalizing s t with
  | zero =>
    rw [Nat.sub_zero, take_length]
    exact shows
  | succ count ih =>
    have once := shows.takeBack (by omega)
    have length : (t.text.take (t.text.length - 1)).length = t.text.length - 1 := by
      rw [length_take]
      omega
    have rest := ih once (by rw [length]; omega)
    rw [length, take_take, Nat.min_eq_left (by omega), Nat.sub_sub, Nat.add_comm 1] at rest
    exact rest

lemma Shows.putAll (bytes : Bytes) (clean : Clean (putAll bytes s)) :
    Shows multiline (putAll bytes s) ⟨t.flags, t.text ++ bytes⟩ := by
  induction bytes generalizing s t with
  | nil =>
    rw [append_nil]
    exact shows
  | cons byte rest ih =>
    have first : Clean (s.put byte) :=
      (@footprint_putAll 0 0 (s.put byte) rest (.inl rfl)).1.clean clean
    have later := ih (shows.append first) clean
    rw [append_assoc] at later
    exact later

/-- The opening of an operation on the text. -/
lemma pre_shows (covered : t.Covered multiline) (clean : Clean (serializeJsonPre s)) :
    Shows multiline (serializeJsonPre s) (t.prepared multiline) := by
  rw [serializeJsonPre_eq s shows.outer, shows.mode, shows.flags] at clean ⊢
  exact ((shows.backBy _ covered).withFlags (openedFlags t.flags)).putAll _ clean

/-- What a write adds at a position of the text. -/
def chunkText (size : Nat) : Chunk → Nat → Bytes
  | .print text, _ => text
  | .escape src, position => quoted (size - position) src
  | .put byte, _ => [byte]
  | .copy bytes, _ => bytes

def JsonText.emitted (size : Nat) (t : JsonText) (chunks : List Chunk) : JsonText :=
  chunks.foldl (fun t chunk => t.add (chunkText size chunk)) t

lemma Shows.buffDiff :
    s.buffDiff = s.buffer.size - t.text.length := by
  rw [Serializer.buffDiff, sub32_of_le shows.sound.inside, shows.length]

omit shows

/-- If a call returned 0 without a stray store, the buffer holds this text. -/
def Gives (multiline : Bool) (o : Outcome) (t : JsonText) : Prop :=
  o.rc = 0 → Clean o.ser → Shows multiline o.ser t

/-- Stray stores are never forgotten, so the first part was clean too. -/
lemma Gives.andThen (first : Gives multiline o t) (print : Footprint 0 o.ser (f o.ser).ser)
    (later : Shows multiline o.ser t → Gives multiline (f o.ser) t') :
    Gives multiline (o.andThen f) t' := by
  intro success clean
  obtain ⟨returned, success, same⟩ := andThen_success success
  rw [same] at clean ⊢
  exact later (first returned (print.clean clean)) success clean

lemma Gives.thenFlags (first : Gives multiline o t) (change : StatusFlags → StatusFlags) :
    Gives multiline (o.andThen fun r => ok { r with
      status := ⟨change r.status.flags, r.status.used, r.status.headerUsed⟩ })
      ⟨change t.flags, t.text⟩ :=
  first.andThen ((Footprint.refl 0 _).withStatus _) fun shown _ _ => shown.mapFlags change

/-- A write that is made if there is room for it. -/
lemma Gives.checked [Decidable full] (fits : ¬full → Clean u → Shows multiline u t) :
    Gives multiline (if full then failed r else ok u) t := by
  intro success clean
  split at success
  · exact absurd success (by decide : (-1 : Int) ≠ 0)
  · next room =>
    rw [if_neg room] at clean ⊢
    exact fits room clean

lemma andThen_assoc (o : Outcome) (f g : Serializer → Outcome) :
    (o.andThen f).andThen g = o.andThen fun s => (f s).andThen g := by
  unfold Outcome.andThen
  split
  · rfl
  · rfl

lemma emitAll_print (s : Serializer) {chunks : List Chunk} :
    Footprint 0 s (Serializer.emitAll chunks s).ser :=
  (@footprint_emitAll 0 0 s chunks (.inl rfl)).1

lemma post_print (s : Serializer) : Footprint 0 s (serializeJsonPost s).ser :=
  footprint_post (.inl rfl)

section
variable (shows : Shows multiline s t)
include shows

lemma print_shows :
    Gives multiline (s.emit (.print text)) (t.add fun _ => text) := by
  refine Gives.checked fun fits clean => ?_
  have room : s.buffDiff ≠ 0 := by omega
  have whole : text.take (s.buffDiff - 1) = text := take_of_length_le (by omega)
  -- the text and the NUL behind it are two stores
  have split : ({ s with
      buffer.data := snprintfAt s.buffer.data s.status.used s.buffDiff text } : Serializer).advance
        text.length = (s.append text).storeAll (s.status.used + text.length) [0] := by
    unfold snprintfAt
    rw [if_neg room, whole, storeAll_append]
    rfl
  rw [split] at clean ⊢
  have shown := shows.append ((footprint_storeAll (s.append text) [0] (Nat.zero_le _)).clean clean)
  have used : (s.append text).status.used = s.status.used + text.length := by
    rw [← shown.length, length_append, shows.length]
  exact shown.storeAll [0] (Nat.le_of_eq used)

lemma escape_shows :
    Gives multiline (s.emit (.escape src)) (t.add fun position =>
      quoted (s.buffer.size - position) src) := by
  intro _ clean
  have copied := (footprint_storeAll (s.append (jsonStringEscape src (toInt32 s.buffDiff))) [0]
    (Nat.zero_le _)).clean clean
  have fits := (append_inside shows.sound.toShaped (by simp [jsonStringEscape]) copied).2
  have room := shows.buffDiff
  have length := shows.length
  have size := shows.sound.size
  have text := @jsonStringEscape_eq s.buffDiff src (by omega) (by omega)
  show Shows multiline ((s.append (jsonStringEscape src (toInt32 s.buffDiff))).storeAll
    (s.status.used + (jsonStringEscape src (toInt32 s.buffDiff)).length + 1) [0]) _
  rw [text] at copied ⊢
  have shown := shows.append copied
  have used : (s.append (quoted s.buffDiff src)).status.used =
      s.status.used + (quoted s.buffDiff src).length := by
    rw [← shown.length, length_append, length]
  rw [room] at shown ⊢
  exact shown.storeAll [0] (by rw [← room, used]; omega)

lemma emit_shows (chunk : Chunk) :
    Gives multiline (s.emit chunk) (t.add (chunkText s.buffer.size chunk)) := by
  cases chunk with
  | put byte => exact fun _ clean => shows.append clean
  | copy bytes => exact fun _ clean => shows.append clean
  | print text => exact print_shows shows
  | escape src => exact escape_shows shows

end

lemma emitAll_shows (chunks : List Chunk) (shows : Shows multiline s t) :
    Gives multiline (Serializer.emitAll chunks s) (t.emitted s.buffer.size chunks) := by
  induction chunks generalizing s t with
  | nil => exact fun _ _ => shows
  | cons chunk rest ih =>
    refine (emit_shows shows chunk).andThen (emitAll_print _) fun shown => ?_
    have later := ih shown
    rw [(footprint_emit (s := s) chunk (Nat.zero_le _)).size] at later
    exact later

lemma putIf_shows (present : Bool) (byte : UInt8) (shows : Shows multiline s t) :
    Gives multiline (putIf present byte s) ⟨t.flags, t.text ++ if present then [byte] else []⟩ := by
  cases present with
  | false =>
    simp only [Bool.false_eq_true, if_false, append_nil]
    exact fun _ _ => shows
  | true => exact Gives.checked fun _ clean => shows.append clean

lemma closeObject_shows (shows : Shows multiline s t) :
    Gives multiline (closeObject s) ⟨{ t.flags with ceob := false }, t.text ++ [0x7D]⟩ := by
  unfold closeObject
  simp only [shows.outer, Bool.not_false, Bool.true_or, if_true]
  exact Gives.checked fun _ clean =>
    (shows.append clean).mapFlags fun flags => { flags with ceob := false }

/-- The closing characters on the text. -/
lemma post_shows (shows : Shows multiline s t) :
    Gives multiline (serializeJsonPost s) (t.finished multiline) := by
  have parts : serializeJsonPost s =
      (((putIf (!multiline && t.flags.list) 0x5D s).andThen closeObject).andThen fun r =>
        putIf (!r.multilineJsonArray && r.status.flags.array) 0x5D r).andThen fun r =>
          ok { r with status.flags.comma := true } := by
    rw [serializeJsonPost_eq, shows.mode, shows.flags, andThen_assoc, andThen_assoc]
  have object := (putIf_shows (!multiline && t.flags.list) 0x5D shows).andThen
    (@footprint_closeObject 0 0 _ (.inl rfl)).1 closeObject_shows
  have array := object.andThen (f := fun r => putIf (!r.multilineJsonArray &&
      r.status.flags.array) 0x5D r) (@footprint_putIf 0 0 _ _ _ (.inl rfl)).1 fun shown => by
    rw [shown.mode, shown.flags]
    exact putIf_shows (!multiline && t.flags.array) 0x5D shown
  have closed := array.thenFlags fun flags => { flags with comma := true }
  rw [parts]
  simpa [JsonText.finished, closing] using closed

lemma emitted_append (size : Nat) (t : JsonText) (first rest : List Chunk) :
    t.emitted size (first ++ rest) = (t.emitted size first).emitted size rest :=
  foldl_append

lemma emitted_key (size : Nat) (t : JsonText) (key : JsonKey) :
    t.emitted size key.chunks = t.add (key.text size) := by
  cases key with
  | number key => rfl
  | name bytes => simp [JsonText.emitted, JsonKey.chunks, JsonText.add, chunkText, JsonKey.text]

lemma emitted_value (size : Nat) (t : JsonText) (value : JsonValue) :
    t.emitted size [value.chunk] = t.add (value.text size) := by
  cases value with
  | printed text => rfl
  | string bytes => rfl
  | raw bytes => rfl

lemma emitted_item (size : Nat) (t : JsonText) (key : JsonKey) (value : JsonValue) :
    t.emitted size ((if t.flags.list then [] else key.chunks) ++ [value.chunk]) =
      t.written size key value := by
  rw [emitted_append, emitted_value, JsonText.written]
  split
  · rfl
  · rw [emitted_key]

/-- An operation that writes between an opening and a closing. -/
lemma between_shows (chunks : List Chunk) (change : StatusFlags → StatusFlags)
    (shows : Shows multiline s t) (covered : t.Covered multiline)
    (written : (t.prepared multiline).emitted s.buffer.size chunks = t') :
    Gives multiline ((Serializer.emitAll chunks (serializeJsonPre s)).andThen fun r =>
      serializeJsonPost { r with
        status := ⟨change r.status.flags, r.status.used, r.status.headerUsed⟩ })
      (JsonText.finished multiline ⟨change t'.flags, t'.text⟩) := by
  subst written
  have size := (@footprint_pre 0 0 s shows.outer (.inl rfl)).1.size
  apply Gives.andThen (t := (t.prepared multiline).emitted s.buffer.size chunks)
  · intro emitted clean
    have opened := pre_shows shows covered ((emitAll_print _).clean clean)
    have shown := emitAll_shows chunks opened emitted clean
    rw [size] at shown
    exact shown
  · exact ((Footprint.refl 0 _).withStatus _).trans (post_print _)
  · exact fun shown => post_shows (shown.mapFlags change)

end

section
variable {multiline : Bool} {s : Serializer} {t : JsonText}

lemma putAll_flags (s : Serializer) : (putAll bytes s).status.flags = s.status.flags := by
  induction bytes generalizing s with
  | nil => rfl
  | cons byte rest ih => exact ih (s.put byte)

lemma item_shows (shows : Shows multiline s t) (covered : t.Covered multiline) :
    Gives multiline ((JsonForm.item key value).body s)
      (t.step multiline s.buffer.size (.item key value)) := by
  -- whether the key is written depends on a flag that the opening keeps
  have list : (serializeJsonPre s).status.flags.list = (t.prepared multiline).flags.list := by
    rw [serializeJsonPre_eq s shows.outer, putAll_flags, shows.flags]
    rfl
  have closed := between_shows ((if (t.prepared multiline).flags.list then [] else key.chunks) ++
    [value.chunk]) id shows covered (emitted_item _ _ key value)
  simp only [JsonForm.body, jsonItem, list]
  exact closed.thenFlags fun flags => { flags with notEmpty := true }

lemma startOfList_shows (shows : Shows multiline s t) (covered : t.Covered multiline) :
    Gives multiline ((JsonForm.startOfList name).body s)
      (t.step multiline s.buffer.size (.startOfList name)) :=
  between_shows [.escape name, .print [0x3A, 0x20, 0x5B]]
    (fun flags => { flags with list := true, sol := true }) shows covered rfl

lemma startOfBlock_shows (shows : Shows multiline s t) (covered : t.Covered multiline) :
    Gives multiline ((JsonForm.startOfBlock name).body s)
      (t.step multiline s.buffer.size (.startOfBlock name)) := by
  have closed := between_shows [.escape name, .print [0x3A, 0x20, 0x7B]] id shows covered rfl
  rw [JsonForm.body, ← andThen_assoc]
  exact closed.thenFlags fun flags => { flags with sob := true }

lemma print_bracket {r : Serializer} (room : 2 ≤ r.buffDiff) :
    r.emit (.print [0x5D]) = ok ({ r with
      buffer.data := snprintfAt r.buffer.data r.status.used r.buffDiff [0x5D] }.advance 1) := by
  simp only [Serializer.emit, length_singleton]
  rw [if_neg (by omega)]

/-- The first end of a record turns the leading blank into a bracket. -/
lemma bracket_shows (shows : Shows multiline s t) (room : s.status.used + 2 ≤ s.buffer.size)
    (clean : Clean ((s.storeAll 0 [0x5B]).emit (.print [0x5D])).ser) :
    Shows multiline ((s.storeAll 0 [0x5B]).emit (.print [0x5D])).ser
      ⟨t.flags, t.text.set 0 0x5B ++ [0x5D]⟩ := by
  have cells := shows.sound.cells
  have stored : Shows multiline (s.storeAll 0 [0x5B]) ⟨t.flags, t.text.set 0 0x5B⟩ := by
    refine ⟨⟨shows.sound.toShaped.storeAll _ _, shows.sound.inside⟩, shows.fmt, shows.mode,
      shows.outer, shows.flags, ?_⟩
    rw [store_text 0x5B (by omega), shows.text]
  have diff : (s.storeAll 0 [0x5B]).buffDiff = s.buffer.size - s.status.used :=
    sub32_of_le shows.sound.inside
  have success : ((s.storeAll 0 [0x5B]).emit (.print [0x5D])).rc = 0 := by
    rw [print_bracket (by omega)]
    rfl
  exact emit_shows stored (.print [0x5D]) success clean

lemma endOfRecord_shows (shows : Shows multiline s t)
    (room : s.status.used + 2 ≤ s.buffer.size) (clean : Clean (JsonForm.endOfRecord.body s).ser) :
    Shows multiline (JsonForm.endOfRecord.body s).ser
      (t.step multiline s.buffer.size .endOfRecord) := by
  have flagged : ∀ r text, Shows multiline r ⟨t.flags, text⟩ → Shows multiline
      { { { r with status.flags.array := true, status.flags.eor := true } with
        status.flags.comma := false } with status.flags.notEmpty := false }
      ⟨{ t.flags with array := true, eor := true, comma := false, notEmpty := false }, text⟩ :=
    fun r text shown => shown.mapFlags fun flags =>
      { flags with array := true, eor := true, comma := false, notEmpty := false }
  have diff : (s.storeAll 0 [0x5B]).buffDiff = s.buffer.size - s.status.used :=
    sub32_of_le shows.sound.inside
  simp only [JsonForm.body, endOfRecordJson, ok, JsonText.step, shows.mode, shows.flags] at clean ⊢
  cases multiline with
  | true =>
    have clean2 := ((Footprint.refl 0 _).withStatus _).clean clean
    have clean1 := (footprint_storeAll (s.put 0x0A) [0] (Nat.zero_le _)).clean clean2
    exact flagged _ _ ((shows.append clean1).storeAll [0] (Nat.le_refl _))
  | false =>
    simp only [Bool.false_eq_true, if_false] at clean ⊢
    by_cases array : t.flags.array = true
    · simp only [array, if_true]
      exact flagged s t.text shows
    · simp only [array] at clean ⊢
      have printed := @print_bracket (s.storeAll 0 [0x5B]) (by omega)
      have clean1 := ((Footprint.refl 0 _).withStatus _).clean clean
      have shown := bracket_shows shows room (by rw [printed]; exact clean1)
      rw [printed] at shown
      exact flagged _ _ shown

/-- Everything but the space to reserve, on the text. -/
lemma body_shows (form : JsonForm) (shows : Shows multiline s t) (covered : t.Covered multiline)
    (room : s.status.used + form.least ≤ s.buffer.size) (success : (form.body s).rc = 0)
    (clean : Clean (form.body s).ser) :
    Shows multiline (form.body s).ser (t.step multiline s.buffer.size form) := by
  cases form with
  | item key value => exact item_shows shows covered success clean
  | startOfList name => exact startOfList_shows shows covered success clean
  | endOfList => exact shows.mapFlags fun flags => { flags with sol := false, list := false }
  | startOfBlock name => exact startOfBlock_shows shows covered success clean
  | endOfBlock =>
    exact post_shows (shows.mapFlags fun flags => { flags with sob := false, ceob := true })
      success clean
  | endOfRecord => exact endOfRecord_shows shows room clean

end

/-- A JSON serializer whose buffer has shrunk far below its text. -/
structure Lost (s : Serializer) : Prop where
  shaped : Shaped s
  fmt : s.fmt = .json
  outer : s.innerJson = false
  gone : s.buffer.size + 1073741824 < s.status.used

section
variable {s : Serializer}

lemma putAll_lost (shaped : Shaped s) (outside : s.buffer.size ≤ s.status.used)
    (clean : Clean (putAll bytes s)) : bytes = [] := by
  cases bytes with
  | nil => rfl
  | cons byte rest =>
    have first : Clean (s.put byte) :=
      (@footprint_putAll 0 0 (s.put byte) rest (.inl rfl)).1.clean clean
    have inside := (append_inside shaped (by simp) first).2
    rw [length_singleton] at inside
    omega

/-- Outside its buffer a serializer can copy nothing and write nothing else. -/
lemma emit_lost {chunk : Chunk} (shaped : Shaped s) (outside : s.buffer.size ≤ s.status.used)
    (success : (s.emit chunk).rc = 0) (clean : Clean (s.emit chunk).ser) :
    (s.emit chunk).ser.status.used = s.status.used := by
  have copies : ∀ bytes, Clean (s.append bytes) → bytes = [] := by
    intro bytes clean
    by_contra some
    have inside := (append_inside shaped some clean).2
    have positive := length_pos_iff.mpr some
    omega
  cases chunk with
  | put byte => exact absurd (copies [byte] clean) (by simp)
  | copy bytes =>
    obtain rfl := copies bytes clean
    exact wrap32_of_lt shaped.used
  | escape src =>
    have copied := (footprint_storeAll
      (s.append (jsonStringEscape src (toInt32 s.buffDiff))) [0] (Nat.zero_le _)).clean clean
    exact absurd (copies _ copied) (by simp [jsonStringEscape])
  | print text =>
    simp only [Serializer.emit] at success clean
    split at success
    · exact absurd success (by decide : (-1 : Int) ≠ 0)
    · next fits =>
      rw [if_neg fits] at clean
      have printed : Clean (s.storeAll s.status.used (text.take (s.buffDiff - 1) ++ [0])) := by
        have room : s.buffDiff ≠ 0 := by omega
        simp only [snprintfAt, if_neg room] at clean
        exact clean
      have inside := (storeAll_clean _ _ _ printed).2 (by simp)
      rw [shaped.cells, length_append, length_singleton] at inside
      omega

variable {chunks : List Chunk}

lemma emitAll_lost (shaped : Shaped s)
    (outside : s.buffer.size ≤ s.status.used) (success : (Serializer.emitAll chunks s).rc = 0)
    (clean : Clean (Serializer.emitAll chunks s).ser) :
    (Serializer.emitAll chunks s).ser.status.used = s.status.used := by
  induction chunks generalizing s with
  | nil => rfl
  | cons chunk rest ih =>
    rw [Serializer.emitAll] at success clean ⊢
    obtain ⟨first, later, same⟩ := andThen_success success
    rw [same] at clean ⊢
    have clean1 := (emitAll_print _).clean clean
    have print := @footprint_emit 0 s chunk (Nat.zero_le _)
    have used := emit_lost shaped outside first clean1
    have shaped1 := print.shaped shaped (used ▸ shaped.used)
    rw [ih shaped1 (by rw [used, print.size]; exact outside) later clean, used]

lemma post_lost (outside : s.buffer.size ≤ s.status.used) : (serializeJsonPost s).rc ≠ 0 := by
  intro success
  rw [serializeJsonPost_eq] at success
  obtain ⟨first, success, -⟩ := andThen_success success
  obtain ⟨second, -, -⟩ := andThen_success success
  unfold putIf at first second
  split at first
  · rw [Serializer.putChecked, if_pos outside] at first
    exact absurd first (by decide : (-1 : Int) ≠ 0)
  · next absent =>
    rw [if_neg absent, closeObject] at second
    have full : (ok s).ser.buffer.size ≤ (ok s).ser.status.used := outside
    rw [if_pos full] at second
    exact absurd second (by decide : (-1 : Int) ≠ 0)

lemma backBy_lost (count : Nat) (shaped : Shaped s) (enough : count ≤ s.status.used) :
    (backBy count s).status.used = s.status.used - count ∧ Shaped (backBy count s) ∧
      (backBy count s).buffer = s.buffer := by
  induction count generalizing s with
  | zero => exact ⟨rfl, shaped, rfl⟩
  | succ count ih =>
    have used : s.takeBack.status.used = s.status.used - 1 := sub32_of_le (by omega)
    have shaped1 : Shaped s.takeBack := by
      refine ⟨shaped.cells, shaped.size, ?_⟩
      have below := shaped.used
      omega
    obtain ⟨used', shaped', same⟩ := ih shaped1 (by omega)
    exact ⟨used'.trans (by omega), shaped', same⟩

lemma closers_le (multiline : Bool) (flags : StatusFlags) : closers multiline flags ≤ 3 := by
  unfold closers
  repeat' split
  all_goals omega

/-- No operation that writes between an opening and a closing succeeds. -/
lemma between_lost (lost : Lost s) (change : StatusFlags → StatusFlags)
    (same : o = (Serializer.emitAll chunks (serializeJsonPre s)).andThen fun r =>
      serializeJsonPost { r with
        status := ⟨change r.status.flags, r.status.used, r.status.headerUsed⟩ })
    (success : o.rc = 0) (clean : Clean o.ser) : False := by
  subst same
  obtain ⟨emitted, closed, result⟩ := andThen_success success
  rw [result] at clean
  replace clean := ((Footprint.refl 0 _).withStatus _).clean ((post_print _).clean clean)
  have gone := lost.gone
  have few := closers_le s.multilineJsonArray s.status.flags
  have clean1 := (emitAll_print _).clean clean
  obtain ⟨used, shaped, buffer⟩ := backBy_lost (closers s.multilineJsonArray s.status.flags)
    lost.shaped (by omega)
  have pre := serializeJsonPre_eq s lost.outer
  rw [pre] at clean1
  have shaped' : Shaped { backBy (closers s.multilineJsonArray s.status.flags) s with
      status.flags := openedFlags s.status.flags } := ⟨shaped.cells, shaped.size, shaped.used⟩
  have outside : (backBy (closers s.multilineJsonArray s.status.flags) s).buffer.size ≤
      (backBy (closers s.multilineJsonArray s.status.flags) s).status.used := by
    rw [used, buffer]
    omega
  rw [putAll_lost shaped' outside clean1] at pre
  have opened : Shaped (serializeJsonPre s) ∧
      (serializeJsonPre s).buffer.size ≤ (serializeJsonPre s).status.used := by
    rw [pre]
    exact ⟨shaped', outside⟩
  have after := emitAll_lost opened.1 opened.2 emitted clean
  refine post_lost ?_ closed
  show SerializerBuffer.size _ ≤ SerializerStatus.used _
  rw [after, (emitAll_print _).size]
  exact opened.2

/-- What succeeds on a lost buffer writes nothing to it. -/
lemma body_lost (form : JsonForm) (lost : Lost s) (success : (form.body s).rc = 0)
    (clean : Clean (form.body s).ser) :
    Lost (form.body s).ser ∧
      (form = .endOfList ∨ form = .endOfRecord ∧ s.multilineJsonArray = false) := by
  have gone := lost.gone
  cases form with
  | item key value =>
    obtain ⟨written, -, same⟩ := andThen_success success
    rw [JsonForm.body, same] at clean
    exact (between_lost lost id rfl written
      (((Footprint.refl 0 _).withStatus _).clean clean)).elim
  | startOfList name =>
    exact (between_lost lost (fun flags => { flags with list := true, sol := true }) rfl success
      clean).elim
  | startOfBlock name =>
    rw [JsonForm.body, ← andThen_assoc] at success clean
    obtain ⟨written, -, same⟩ := andThen_success success
    rw [same] at clean
    exact (between_lost lost id rfl written
      (((Footprint.refl 0 _).withStatus _).clean clean)).elim
  | endOfList => exact ⟨⟨⟨lost.shaped.cells, lost.shaped.size, lost.shaped.used⟩, lost.fmt,
      lost.outer, gone⟩, .inl rfl⟩
  | endOfBlock =>
    have outside : s.buffer.size ≤ s.status.used := by omega
    exact absurd success (@post_lost { s with
      status.flags.sob := false, status.flags.ceob := true } outside)
  | endOfRecord =>
    have outside : s.buffer.size ≤ s.status.used := by omega
    simp only [JsonForm.body, endOfRecordJson, ok] at clean ⊢
    split at clean
    · exfalso
      have clean2 := ((Footprint.refl 0 _).withStatus _).clean clean
      have clean1 := (footprint_storeAll (s.put 0x0A) [0] (Nat.zero_le _)).clean clean2
      exact absurd (@putAll_lost s [0x0A] lost.shaped outside clean1) (by simp)
    · next single =>
      rw [if_neg single]
      split at clean
      · next array =>
        rw [if_pos array]
        exact ⟨⟨⟨lost.shaped.cells, lost.shaped.size, lost.shaped.used⟩, lost.fmt, lost.outer,
          gone⟩, .inr ⟨trivial, Bool.eq_false_iff.mpr single⟩⟩
      · exfalso
        have below := lost.shaped.used
        have diff : (s.storeAll 0 [0x5B]).buffDiff ≠ 0 := by
          have under : s.buffer.size < s.status.used := by omega
          have wrapped : (s.storeAll 0 [0x5B]).buffDiff =
              s.buffer.size + 4294967296 - s.status.used := sub32_of_lt under
          omega
        simp only [snprintfAt, if_neg diff] at clean
        have inside := (storeAll_clean _ _ _ clean).2 (by simp)
        have cells : (s.storeAll 0 [0x5B]).buffer.data.cells.length = s.buffer.size :=
          (storeAll_length _ _ _).trans lost.shaped.cells
        have used : (s.storeAll 0 [0x5B]).status.used = s.status.used := rfl
        rw [cells, used, length_append, length_singleton] at inside
        omega

/-- A buffer that is lost stays lost: growing it again is not nearly enough. -/
lemma reserve_lost (heap : Heap) (modest : needed ≤ 1048576) (lost : Lost s)
    (success : (s.reserve heap needed).rc = 0) : Lost (s.reserve heap needed).ser := by
  have gone := lost.gone
  have used := lost.shaped.used
  have diff := buffDiff_eq s
  rw [if_neg (by omega)] at diff
  rcases reserve_cases success with ⟨-, result⟩ | ⟨tight, newSize, rounded, result⟩
  · rw [result]
    exact lost
  · have grown := extendedSize_cases s.buffer (needed - s.buffDiff) lost.shaped.size (by omega)
    have small := extendedSize_lt s.buffer (needed - s.buffDiff)
    rw [← rounded] at grown small
    rw [result]
    have below : newSize + 1073741824 < s.status.used := by omega
    exact ⟨⟨resize_length _ _ _, small, used⟩, lost.fmt, lost.outer, below⟩

lemma apply_lost (heap : Heap) (op : Op) (shape : Op.jsonForm op = some form)
    (lost : Lost s) (success : (op.apply heap s).rc = 0) (clean : Clean (op.apply heap s).ser) :
    Lost (op.apply heap s).ser := by
  obtain ⟨needed, -, modest, same⟩ := apply_takesForm heap op shape s lost.fmt
  rw [same] at success clean ⊢
  obtain ⟨granted, returned, result⟩ := andThen_success success
  rw [result] at clean ⊢
  exact (body_lost form (reserve_lost heap modest lost granted) returned clean).1

end

/-- How the size of the buffer changed: not at all, or from one with little room
behind the text to another. -/
def Resized (s t : Serializer) : Prop :=
  t.buffer.size = s.buffer.size ∨
    s.buffer.size ≤ s.status.used + 1048576 ∧ t.buffer.size ≤ s.status.used + 2097152

section
variable {multiline : Bool} {s : Serializer} {t : JsonText} (heap : Heap)

lemma reserve_shows (modest : needed ≤ 1048576)
    (shows : Shows multiline s t) (success : (s.reserve heap needed).rc = 0) :
    Shows multiline (s.reserve heap needed).ser t ∧
        s.status.used + needed ≤ (s.reserve heap needed).ser.buffer.size ∧
        Resized s (s.reserve heap needed).ser ∨
      Lost (s.reserve heap needed).ser := by
  have inside := shows.sound.inside
  have size := shows.sound.size
  have reserved := reserve_spec shows.sound.toShaped modest success
  have diff := buffDiff_eq s
  rw [if_pos inside] at diff
  have same := reserved.same
  have used : (s.reserve heap needed).ser.status.used = s.status.used := by rw [same]
  rcases reserved.room with ⟨-, room, -, -⟩ | ⟨under, far⟩
  · left
    refine ⟨⟨⟨reserved.shaped, by omega⟩, ?_, ?_, ?_, ?_, ?_⟩, room, ?_⟩
    · rw [same]; exact shows.fmt
    · rw [same]; exact shows.mode
    · rw [same]; exact shows.outer
    · rw [same]; exact shows.flags
    · rw [reserved.kept inside (by omega)]; exact shows.text
    · rcases reserve_cases success with ⟨-, result⟩ | ⟨tight, newSize, rounded, result⟩
      · rw [result]
        exact .inl rfl
      · have grown := extendedSize_cases s.buffer (needed - s.buffDiff) size (by omega)
        rw [← rounded] at grown
        rw [result] at room ⊢
        have enough : s.status.used + needed ≤ newSize := room
        have bound : newSize ≤ s.status.used + 2097152 := by omega
        exact .inr ⟨by omega, bound⟩
  · right
    refine ⟨reserved.shaped, ?_, ?_, by omega⟩
    · rw [same]; exact shows.fmt
    · rw [same]; exact shows.outer

lemma body_size (form : JsonForm) (outer : s.innerJson = false) :
    (form.body s).ser.buffer.size = s.buffer.size := by
  rw [(@footprint_body 0 s form outer (.inl rfl)).size, JsonForm.bracketed]
  split <;> rfl

/-- The end of a list changes no more than the flags. -/
lemma apply_endOfList (shape : Op.jsonForm op = some .endOfList) (fmt : s.fmt = .json) :
    op.apply heap s = ok { s with status.flags.sol := false, status.flags.list := false } := by
  obtain rfl := jsonForm_ends.1 shape
  show serializeEndOfList s = _
  unfold serializeEndOfList
  simp [fmt]

/-- A call that returns 0 without a stray store takes the text one step further,
unless the end of a record in an array loses the buffer. -/
lemma apply_shows (op : Op) (shape : Op.jsonForm op = some form)
    (shows : Shows multiline s t) (covered : t.Covered multiline)
    (success : (op.apply heap s).rc = 0) (clean : Clean (op.apply heap s).ser) :
    Shows multiline (op.apply heap s).ser
        (t.step multiline (op.apply heap s).ser.buffer.size form) ∧
        Resized s (op.apply heap s).ser ∨
      Lost (op.apply heap s).ser ∧ form = .endOfRecord ∧ multiline = false := by
  by_cases quiet : form = .endOfList
  · subst quiet
    rw [apply_endOfList heap shape shows.fmt]
    exact .inl ⟨shows.mapFlags fun flags => { flags with sol := false, list := false }, .inl rfl⟩
  obtain ⟨needed, least, modest, same⟩ := apply_takesForm heap op shape s shows.fmt
  rw [same] at success clean ⊢
  obtain ⟨granted, returned, result⟩ := andThen_success success
  rw [result] at clean ⊢
  rcases reserve_shows heap modest shows granted with ⟨shown, room, resized⟩ | lost
  · left
    have size := body_size form shown.outer
    have used : (s.reserve heap needed).ser.status.used = s.status.used := by
      rw [← shown.length, shows.length]
    have step := body_shows form shown covered (by omega) returned clean
    refine ⟨size ▸ step, ?_⟩
    unfold Resized at resized ⊢
    rw [size]
    exact resized
  · obtain ⟨lost, loser⟩ := body_lost form lost returned clean
    obtain ⟨ends, mode⟩ := loser.resolve_left quiet
    rw [reserve_mode, shows.mode] at mode
    exact .inr ⟨lost, ends, mode⟩

end
end Ndpi.Refinement
