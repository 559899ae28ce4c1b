import Ndpi.Guarantees.TlsBlocks
import Ndpi.Source.TcpFingerprint

/-!
# The loop over the options of a TCP fingerprint

The index of the loop may stand still or go back, but every turn that stays in the loop
prints at least one character, and there is room for 127 of them. What is printed and
what is read stays inside the buffers and the options.
-/
namespace Ndpi.Guarantees.TcpFingerprint
open Lib Source.Serialization Source.Tls.Blocks Source.TcpFingerprint List Scan
open Guarantees.TlsBlocks (snprintfAt_inside)

section

/-- The buffer has its size, and nothing was stored outside of it. -/
structure Sound (t : Text) : Prop where
  size : t.buffer.cells.length = textSize
  clean : t.buffer.stray = []

/-- What a print comes to: a text as sound as before, which has grown if it is counted. -/
def Grown (holds : Text → Prop) (t : Text) (printed : Turn Text Text) : Prop :=
  ∃ after, holds after ∧ t.len ≤ after.len ∧
    (printed = .leave after ∨ printed = .stay after ∧ t.len < after.len)

variable {t : Text}

lemma sound_snprintfAt (sound : Sound t) (inside : t.len ≤ textSize) (text : Bytes) (len : Nat) :
    Sound ⟨snprintfAt t.buffer t.len (textSize - t.len) text, len⟩ := by
  have room : t.len + (textSize - t.len) ≤ t.buffer.cells.length := by
    rw [sound.size]
    omega
  obtain ⟨stray, size⟩ := snprintfAt_inside text room
  exact ⟨size.trans sound.size, stray.trans sound.clean⟩

/-- The hexadecimal text has an even length, so it meets the end of the buffer. -/
structure Hexadecimal (t : Text) : Prop where
  sound : Sound t
  inside : t.len < textSize
  even : t.len % 2 = 0

lemma print_hexByte (hexadecimal : Hexadecimal t) (b : UInt8) :
    Grown Hexadecimal t (t.print (hexByte b)) := by
  have inside := hexadecimal.inside
  have even := hexadecimal.even
  have limit : textSize = 128 := rfl
  have two : (hexByte b).length = 2 := rfl
  have sound := sound_snprintfAt hexadecimal.sound inside.le (hexByte b)
  unfold Text.print
  rw [two]
  split
  · exact ⟨_, ⟨sound _, inside, even⟩, le_rfl, .inl rfl⟩
  · have narrow : (t.len + 2) % 256 = t.len + 2 := Nat.mod_eq_of_lt (by omega)
    rw [narrow]
    refine ⟨_, ⟨sound _, ?_, ?_⟩, ?_, .inr ⟨rfl, ?_⟩⟩ <;> dsimp only <;> omega

/-- The list of kinds may be counted a few characters beyond the end of the buffer. -/
structure Listed (t : Text) : Prop where
  sound : Sound t
  inside : t.len < textSize + 4

lemma print_kind (listed : Listed t) (inside : t.len < textSize)
    (some : 0 < text.length) (short : text.length ≤ 4) : Grown Listed t (t.print text) := by
  have limit : textSize = 128 := rfl
  have sound := sound_snprintfAt listed.sound inside.le text
  unfold Text.print
  split
  · exact ⟨_, ⟨sound _, listed.inside⟩, le_rfl, .inl rfl⟩
  · have narrow : (t.len + text.length) % 256 = t.len + text.length :=
      Nat.mod_eq_of_lt (by omega)
    rw [narrow]
    refine ⟨_, ⟨sound _, ?_⟩, ?_, .inr ⟨rfl, ?_⟩⟩ <;> dsimp only <;> omega

end

section

variable {options : Bytes} {format : Format} {s : State}

structure Printing (s : State) : Prop where
  optionsFp : Hexadecimal s.optionsFp
  fingerprint : Listed s.fingerprint

/-- The room that is left in both texts. -/
def roomLeft (s : State) : Nat :=
  (textSize - s.optionsFp.len) + (textSize + 4 - s.fingerprint.len)

lemma decimal_byte_length (b : UInt8) : (decimal b.toNat).length ≤ 3 := by
  have small := b.toNat_lt
  exact decimal_length_le (by decide) (by omega)

variable (format) in
/-- A kind is printed, or the loop is left. -/
lemma printKind_printing (printing : Printing s) (kind : UInt8) :
    ∃ t : State, Printing t ∧ (printKind format kind s = .leave t ∨
      printKind format kind s = .stay t ∧ roomLeft t < roomLeft s) := by
  have hexInside := printing.optionsFp.inside
  have listInside := printing.fingerprint.inside
  unfold printKind
  cases format with
  | native =>
    obtain ⟨after, isHex, _, left | ⟨stayed, grown⟩⟩ := print_hexByte printing.optionsFp kind
    · rw [left]
      exact ⟨{ s with optionsFp := after }, ⟨isHex, printing.fingerprint⟩, .inl rfl⟩
    · rw [stayed]
      refine ⟨{ s with optionsFp := after }, ⟨isHex, printing.fingerprint⟩, .inr ⟨rfl, ?_⟩⟩
      unfold roomLeft
      dsimp only
      omega
  | muonfp =>
    dsimp only
    split
    · exact ⟨s, printing, .inl rfl⟩
    · next inside =>
      have digits := decimal_byte_length kind
      have some : 0 < (decimal kind.toNat).length := length_pos_iff.mpr (decimal_ne_nil kind.toNat)
      have text : 0 < ((if s.i > 0 then [0x2D] else []) ++ decimal kind.toNat).length ∧
          ((if s.i > 0 then [0x2D] else []) ++ decimal kind.toNat).length ≤ 4 := by
        rw [length_append]
        split
        · rw [length_singleton]
          omega
        · rw [length_nil]
          omega
      obtain ⟨after, isList, _, left | ⟨stayed, grown⟩⟩ :=
        print_kind printing.fingerprint (not_le.mp inside) text.1 text.2
      · rw [left]
        exact ⟨{ s with fingerprint := after }, ⟨printing.optionsFp, isList⟩, .inl rfl⟩
      · rw [stayed]
        refine ⟨{ s with fingerprint := after }, ⟨printing.optionsFp, isList⟩, .inr ⟨rfl, ?_⟩⟩
        unfold roomLeft
        dsimp only
        omega

lemma optionValue_yields (inside : j + optLen ≤ options.length) :
    (optionValue options j optLen).Yields options.length fun _ => True := by
  unfold optionValue
  split
  · apply yields_bind (yields_byte (by omega))
    intro b _
    exact yields_pure trivial
  split
  · exact (yields_be16 (by omega)).weaken fun _ _ => trivial
  split
  · exact (yields_be24 (by omega)).weaken fun _ _ => trivial
  split
  · exact (yields_be32 (by omega)).weaken fun _ _ => trivial
  · exact yields_pure trivial

/-- Keeping a value changes no text. -/
lemma keepValue_yields (some : 0 < optLen) :
    (keepValue options kind j optLen s).Yields options.length fun t =>
      t.optionsFp = s.optionsFp ∧ t.fingerprint = s.fingerprint := by
  unfold keepValue
  split
  · next kept =>
    apply yields_bind (optionValue_yields (by omega))
    intro val _
    split
    · exact yields_pure ⟨rfl, rfl⟩
    · exact yields_pure ⟨rfl, rfl⟩
  · exact yields_pure ⟨rfl, rfl⟩

lemma printData_yields (optLen j : Nat) (hexadecimal : Hexadecimal t) :
    (printData options optLen j t).Yields options.length fun after =>
      Hexadecimal after ∧ t.len ≤ after.len := by
  induction optLen generalizing j t with
  | zero => exact yields_pure ⟨hexadecimal, le_rfl⟩
  | succ optLen ih =>
    unfold printData
    split
    · next inside =>
      apply yields_bind (yields_byte inside)
      intro b _
      obtain ⟨after, isHex, grown, left | ⟨stayed, _⟩⟩ := print_hexByte hexadecimal b
      · rw [left]
        exact yields_pure ⟨isHex, grown⟩
      · rw [stayed]
        apply (ih (j + 1) isHex).weaken
        rintro final ⟨isHex, more⟩
        exact ⟨isHex, grown.trans more⟩
    · exact yields_pure ⟨hexadecimal, le_rfl⟩

lemma optionData_yields (printing : Printing s) :
    (optionData options format kind len s).Yields options.length fun t =>
      Printing t ∧ roomLeft t ≤ roomLeft s := by
  unfold optionData
  split
  · exact yields_pure ⟨printing, le_rfl⟩
  split
  · next long =>
    have more : 2 < len.toNat := UInt8.lt_iff_toNat_lt.mp long
    apply yields_bind (keepValue_yields (by omega))
    rintro t ⟨optionsFp, fingerprint⟩
    have same : Printing t := by
      refine ⟨?_, ?_⟩
      · rw [optionsFp]
        exact printing.optionsFp
      · rw [fingerprint]
        exact printing.fingerprint
    have room : roomLeft t = roomLeft s := by
      rw [roomLeft, optionsFp, fingerprint]
      rfl
    cases format with
    | native =>
      apply yields_bind (printData_yields _ (t.i + 2) same.optionsFp)
      rintro after ⟨isHex, grown⟩
      refine yields_pure ⟨⟨isHex, same.fingerprint⟩, ?_⟩
      rw [← room]
      unfold roomLeft
      dsimp only
      omega
    | muonfp => exact yields_pure ⟨same, room.le⟩
  · exact yields_pure ⟨printing, le_rfl⟩

lemma optionBody_yields (printing : Printing s) (inside : s.i + 1 < options.length) :
    (optionBody options format kind s).Yields options.length fun t =>
      Printing t ∧ roomLeft t ≤ roomLeft s := by
  apply yields_bind (yields_byte inside)
  intro len _
  split
  · exact yields_pure ⟨printing, le_rfl⟩
  · apply yields_bind (optionData_yields printing)
    rintro t ⟨after, less⟩
    exact yields_pure ⟨⟨after.optionsFp, after.fingerprint⟩, less⟩

/-- A turn that stays in the loop leaves less room. -/
lemma optionTurn_yields (printing : Printing s) :
    (optionTurn options format s).Yields options.length fun came =>
      (∀ t, came = .stay t → Printing t ∧ roomLeft t < roomLeft s) ∧
        ∀ t, came = .leave t → Printing t := by
  have leaving {t : State} (is : Printing t) :
      (pure (.leave t) : Scan (Turn State State)).Yields options.length fun came =>
        (∀ t, came = .stay t → Printing t ∧ roomLeft t < roomLeft s) ∧
          ∀ t, came = .leave t → Printing t := by
    refine yields_pure ⟨?_, ?_⟩
    · intro t stayed
      cases stayed
    · rintro _ ⟨⟩
      exact is
  have staying {t : State} (is : Printing t) (less : roomLeft t < roomLeft s) :
      (pure (.stay t) : Scan (Turn State State)).Yields options.length fun came =>
        (∀ t, came = .stay t → Printing t ∧ roomLeft t < roomLeft s) ∧
          ∀ t, came = .leave t → Printing t := by
    refine yields_pure ⟨?_, ?_⟩
    · rintro _ ⟨⟩
      exact ⟨is, less⟩
    · intro t left
      cases left
  unfold optionTurn
  split
  · next inside =>
    apply yields_bind (yields_byte inside)
    intro kind _
    obtain ⟨t, after, left | ⟨stayed, less⟩⟩ := printKind_printing format printing kind
    · rw [left]
      exact leaving after
    · rw [stayed]
      dsimp only
      split
      · exact staying ⟨after.optionsFp, after.fingerprint⟩ less
      split
      · next more =>
        apply yields_bind (optionBody_yields after more)
        rintro u ⟨final, atMost⟩
        exact staying final (by omega)
      · exact leaving after
  · exact leaving printing

end

lemma start_printing (format : Format) (flags tcpWin : UInt16) (ttl : UInt8)
    (fingerprintSize : fingerprint.length = textSize) (optionsSize : optionsFp.length = textSize) :
    Printing (start format flags tcpWin ttl fingerprint optionsFp) := by
  have limit : textSize = 128 := rfl
  have sound : Sound ⟨⟨fingerprint, []⟩, 0⟩ := ⟨fingerprintSize, rfl⟩
  have digits {n : Nat} (small : n < 65536) : (decimal n).length ≤ 5 :=
    decimal_length_le (by decide) (by omega)
  have ttlSmall : roundedTtl ttl < 65536 := by
    unfold roundedTtl
    split_ifs <;> decide
  have short : (prologue format flags tcpWin ttl).length ≤ 18 := by
    have flagsDigits := digits flags.toNat_lt
    have windowDigits := digits tcpWin.toNat_lt
    have ttlDigits := digits ttlSmall
    unfold prologue
    cases format with
    | native =>
      simp only [length_append, length_cons, length_nil]
      omega
    | muonfp =>
      simp only [length_append, length_cons, length_nil]
      omega
  refine ⟨⟨⟨optionsSize, rfl⟩, Nat.succ_pos 127, rfl⟩, ⟨?_, ?_⟩⟩
  · exact sound_snprintfAt sound (Nat.zero_le _) (prologue format flags tcpWin ttl) _
  · show (prologue format flags tcpWin ttl).length % 256 < _
    omega

/-- For every options area, in both formats and with any contents of the two buffers
of 128 bytes, the loop ends; it reads only the options and stores nothing outside of the
buffers. -/
theorem optionsLoop_contained (options : Bytes) (format : Format) (flags tcpWin : UInt16)
    (ttl : UInt8) (fingerprint optionsFp : Bytes) (fingerprintSize : fingerprint.length = textSize)
    (optionsSize : optionsFp.length = textSize) (fuel : Nat) (enough : 260 < fuel) :
    (optionsLoop options format fuel
        (start format flags tcpWin ttl fingerprint optionsFp)).Yields options.length fun s =>
      s.optionsFp.buffer.stray = [] ∧ s.fingerprint.buffer.stray = [] := by
  have printing := start_printing format flags tcpWin ttl fingerprintSize optionsSize
  have room : roomLeft (start format flags tcpWin ttl fingerprint optionsFp) ≤ 260 := by
    have limit : textSize = 128 := rfl
    unfold roomLeft
    omega
  refine Scan.Yields.weaken (yields_untilLeave
    (fun _ now => optionTurn_yields now) (by omega) printing) ?_
  intro s final
  exact ⟨final.optionsFp.sound.clean, final.fingerprint.sound.clean⟩

/-- An option of length zero, over and over, in both formats. -/
theorem zero_length_option_contained :
    (optionsLoop [5, 0] .native 261 (start .native 2 1024 64 (List.replicate 128 0)
        (List.replicate 128 0))).Yields 2 (fun s =>
      s.optionsFp.buffer.stray = [] ∧ s.fingerprint.buffer.stray = []) ∧
    (optionsLoop [5, 0] .muonfp 261 (start .muonfp 2 1024 64 (List.replicate 128 0)
        (List.replicate 128 0))).Yields 2 (fun s =>
      s.optionsFp.buffer.stray = [] ∧ s.fingerprint.buffer.stray = []) :=
  ⟨optionsLoop_contained [5, 0] .native 2 1024 64 _ _ length_replicate length_replicate
      261 (by decide),
    optionsLoop_contained [5, 0] .muonfp 2 1024 64 _ _ length_replicate length_replicate
      261 (by decide)⟩

end Ndpi.Guarantees.TcpFingerprint
