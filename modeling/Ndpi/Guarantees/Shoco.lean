import Ndpi.Source.Shoco.Codec

/-!
# Decompressing what was compressed

Every turn of the compressor is undone by one turn of the decompressor: the first byte
tells the kind of turn, the fields of a packed word come back as they were put in, and
the tables of characters invert those of ids. So a text without zero bytes is determined
by what it is compressed to.
-/
namespace Ndpi.Guarantees.Shoco
open Lib Source.Shoco List Option

/-- The character of an id, as a byte. -/
def chrOf (id : Nat) : Option UInt8 := (chrsByChrId[id]?).map chrByte

/-- The character of a successor id after another character. -/
def successorOf (last : UInt8) (id : Nat) : Option UInt8 :=
  if last.toNat < minChr then none
  else ((chrsByChrAndSuccessorId[last.toNat - minChr]?).bind (·[id]?)).map chrByte

lemma chrOf_chrId {id : Nat} (known : chrId c = some id) : id < 32 ∧ chrOf id = some c := by
  have all : ((List.range 256).all fun b =>
      (chrId (UInt8.ofNat b)).all fun id => id < 32 && chrOf id == some (UInt8.ofNat b)) = true := by
    decide +kernel
  have here := all_eq_true.mp all c.toNat (mem_range.mpr c.toNat_lt)
  rw [UInt8.ofNat_toNat, known] at here
  simpa using here

/-- The tables of successors invert each other. -/
lemma successorOf_successorId {d : UInt8} {last current id : Nat} (isLast : chrId c = some last)
    (isCurrent : chrId d = some current) (known : successorId last current = some id) :
    successorOf c id = some d := by
  have all : ((List.range 32).all fun last => (List.range 32).all fun current =>
      (successorId last current).all fun id =>
        (chrOf last).bind (successorOf · id) == chrOf current) = true := by
    decide +kernel
  obtain ⟨lastSmall, isC⟩ := chrOf_chrId isLast
  obtain ⟨currentSmall, isD⟩ := chrOf_chrId isCurrent
  have row := all_eq_true.mp all last (mem_range.mpr lastSmall)
  have here := all_eq_true.mp row current (mem_range.mpr currentSmall)
  rw [known, isC, isD] at here
  simpa using here

lemma successorChrs_cons (id : Nat) :
    successorChrs last (id :: ids) =
      (successorOf last id).bind fun c => (successorChrs c ids).map (c :: ·) := by
  rw [successorChrs, successorOf]
  split
  · rfl
  · cases chrsByChrAndSuccessorId[last.toNat - minChr]? with
    | none => rfl
    | some row =>
      simp only [bind_eq_bind, bind_some]
      cases row[id]? with
      | none => rfl
      | some c =>
        simp only [bind_some, map_some]
        cases successorChrs (chrByte c) ids <;> rfl

/-- The successor ids of a text give its characters back. -/
lemma successorChrs_successors {last : Nat} (isLast : chrId c = some last)
    (count : Nat) (text : Bytes) (some_ : Nat) :
    successorChrs c ((successors count last text).take some_) =
      some (text.take (min some_ (successors count last text).length)) := by
  induction count generalizing c last text some_ with
  | zero => simp [successors, successorChrs]
  | succ count ih =>
    cases text with
    | nil => simp [successors, successorChrs]
    | cons d text =>
      rw [successors]
      cases isCurrent : chrId d with
      | none => simp [successorChrs]
      | some current =>
        cases known : successorId last current with
        | none => simp [known, successorChrs]
        | some id =>
          simp only [known]
          cases some_ with
          | zero => simp [successorChrs]
          | succ some_ =>
            rw [take_succ_cons, successorChrs_cons,
              successorOf_successorId isLast isCurrent known, bind_some,
              ih isCurrent text some_, length_cons, Nat.succ_min_succ, take_succ_cons]
            rfl

section

/-- How the fields of a pack lie in its word, and how its first byte begins. -/
structure PackLayout (pack : Pack) (mark : Nat) where
  top : Nat
  head : Nat
  widths : List Nat
  word : pack.word = 2 ^ top * head
  descending : Descending top pack.offsets widths
  isMask : pack.masks = widths.map (2 ^ · - 1)
  count : pack.offsets.length = pack.bytesUnpacked
  placed : ∀ offset ∈ pack.offsets, 8 * (4 - pack.bytesPacked) ≤ offset
  someBytes : 0 < pack.bytesPacked ∧ pack.bytesPacked ≤ 4
  someChars : 0 < pack.bytesUnpacked
  within : 24 ≤ top ∧ 2 ^ top * (head + 1) ≤ 2 ^ 32
  header : ∀ b : Fin 256, b.val / 2 ^ (top - 24) = head →
    decodeHeader (UInt8.ofNat b.val) = some mark

lemma layout_of_mem (mem : pack ∈ packs) :
    ∃ mark, packs[mark]? = some pack ∧ Nonempty (PackLayout pack mark) := by
  simp only [packs, mem_cons, not_mem_nil, or_false] at mem
  rcases mem with rfl | rfl | rfl
  · exact ⟨0, rfl, ⟨30, 2, [4, 2], rfl, by decide, rfl, rfl, by decide, by decide, by decide,
      by decide, by decide +kernel⟩⟩
  · exact ⟨1, rfl, ⟨29, 6, [4, 3, 3, 3], rfl, by decide, rfl, rfl, by decide, by decide,
      by decide, by decide, by decide +kernel⟩⟩
  · exact ⟨2, rfl, ⟨28, 14, [5, 4, 4, 4, 3, 3, 3, 2], rfl, by decide, rfl, rfl, by decide,
      by decide, by decide, by decide, by decide +kernel⟩⟩

/-- Indices that pass the check fit into the fields. -/
lemma fit_of_checkIndices (enough : widths.length ≤ indices.length)
    (checked : ((indices.zip (widths.map (2 ^ · - 1))).all fun both => both.1 ≤ both.2) = true) :
    Fit indices widths := by
  induction widths generalizing indices with
  | nil => cases indices <;> trivial
  | cons width widths ih =>
    cases indices with
    | nil => simp at enough
    | cons index indices =>
      simp only [map_cons, zip_cons_cons, all_cons, Bool.and_eq_true, decide_eq_true_eq] at checked
      have positive : 0 < 2 ^ width := by positivity
      refine ⟨by omega, ih ?_ checked.2⟩
      simpa using enough

variable {pack : Pack} {mark : Nat} {indices : List Nat}

variable (layout : PackLayout pack mark) (fit : Fit indices layout.widths)
include layout fit

lemma putFields_lt :
    putFields pack.word indices pack.offsets < 2 ^ 32 := by
  have high := putFields_high layout.head layout.descending fit
  rw [← layout.word] at high
  have positive : 0 < 2 ^ layout.top := by positivity
  calc putFields pack.word indices pack.offsets < 2 ^ layout.top * (layout.head + 1) := by
        rw [← high]
        exact Nat.lt_mul_div_succ _ positive
    _ ≤ 2 ^ 32 := layout.within.2

/-- The first byte of a packed word tells the pack. -/
lemma decodeHeader_packed (isWord : putFields pack.word indices pack.offsets = word) :
    decodeHeader (UInt8.ofNat (word / 2 ^ 24)) = some mark := by
  have small := putFields_lt layout fit
  have high := putFields_high layout.head layout.descending fit
  rw [← layout.word, isWord] at high
  rw [isWord] at small
  have byte : word / 2 ^ 24 < 256 := by omega
  refine layout.header ⟨word / 2 ^ 24, byte⟩ ?_
  rw [Nat.div_div_eq_div_mul, ← Nat.pow_add, Nat.add_sub_cancel' layout.within.1, high]

/-- The fields come back from the bytes that were written, whatever follows them. -/
lemma getFields_packed {code : Bytes} (isCode : code.length = 4) :
    getFields (beNat ((beBytes 4 (putFields pack.word indices pack.offsets)).take pack.bytesPacked ++
      code.drop pack.bytesPacked)) pack.offsets pack.masks = indices.take pack.bytesUnpacked := by
  have small := putFields_lt layout fit
  generalize isWord : putFields pack.word indices pack.offsets = word at small ⊢
  have range : 2 ^ (8 * (4 - pack.bytesPacked)) = 256 ^ (4 - pack.bytesPacked) := by
    rw [Nat.pow_mul]
  have kept := beNat_append_div ((beBytes 4 word).take pack.bytesPacked)
    ((beBytes 4 word).drop pack.bytesPacked)
  have read := beNat_append_div ((beBytes 4 word).take pack.bytesPacked)
    (code.drop pack.bytesPacked)
  rw [take_append_drop, beNat_beBytes_of_lt small, length_drop, beBytes_length] at kept
  rw [length_drop, isCode] at read
  rw [← layout.count]
  refine getFields_putFields layout.head layout.descending fit layout.isMask
    (8 * (4 - pack.bytesPacked)) layout.placed ?_
  rw [← layout.word, isWord, range, read, kept]

end

section

/-- One turn of the decompressor takes the bytes of a turn of the compressor back to the
characters that it took. -/
structure Undone (c : UInt8) (rest : Bytes) (bytes : Bytes) (taken : Nat) : Prop where
  someBytes : bytes ≠ []
  someChars : 0 < taken
  within : taken ≤ rest.length + 1
  decodes : ∀ (bufsize turns : Nat) (more code out : Bytes), code.length = 4 →
    out.length + taken ≤ bufsize → ∃ code', code'.length = 4 ∧
      decompressLoop bufsize (turns + 1) (bytes ++ more) code out =
        decompressLoop bufsize turns more code' (out ++ (c :: rest).take taken)

lemma decodeHeader_ascii (ascii : b < 0x80) : decodeHeader b = none := by
  have all : ∀ b : Fin 128, decodeHeader (UInt8.ofNat b.val) = none := by decide +kernel
  simpa using all ⟨b.toNat, UInt8.lt_iff_toNat_lt.mp ascii⟩

variable {c : UInt8}

lemma undone_lastResort (nonzero : c ≠ 0) :
    Undone c rest (if 0x80 ≤ c then [0x00, c] else [c]) 1 where
  someBytes := by split <;> simp
  someChars := by decide
  within := by omega
  decodes := by
    intro bufsize turns more code out isCode room
    refine ⟨code, isCode, ?_⟩
    have free : ¬bufsize ≤ out.length := by omega
    split
    · have zero : decodeHeader 0x00 = none := rfl
      rw [cons_append, decompressLoop, zero]
      simp [if_neg free]
    · next ascii =>
      have plain := decodeHeader_ascii (UInt8.not_le.mp ascii)
      rw [cons_append, decompressLoop, plain]
      simp [if_neg free, if_neg nonzero]

lemma successors_length_le (count last : Nat) (text : Bytes) :
    (successors count last text).length ≤ text.length := by
  induction count generalizing last text with
  | zero => simp [successors]
  | succ count ih =>
    cases text with
    | nil => simp [successors]
    | cons c text =>
      rw [successors]
      split
      · simp
      · split
        · simp
        · simpa using ih _ text

/-- The first byte of a packed word, which the rest follow. -/
lemma packed_cons (word : Nat) {count : Nat} (positive : 0 < count) :
    ∃ bytes, (beBytes 4 word).take count = UInt8.ofNat (word / 2 ^ 24) :: bytes := by
  obtain ⟨count, rfl⟩ : ∃ n, count = n + 1 := ⟨count - 1, by omega⟩
  refine ⟨((beBytes 4 word).drop 1).take count, ?_⟩
  simp [beBytes, Nat.div_div_eq_div_mul]

lemma undone_pack {rest : Bytes} {id : Nat} (isId : chrId c = some id)
    (best : findBestEncoding (id :: successors maxSuccessorN id rest) = some pack) :
    Undone c rest
      ((beBytes 4 (putFields pack.word (id :: successors maxSuccessorN id rest) pack.offsets)).take
        pack.bytesPacked) pack.bytesUnpacked := by
  obtain ⟨mark, isPack, ⟨layout⟩⟩ := layout_of_mem
    (mem_reverse.mp (mem_of_find?_eq_some best))
  have suits := find?_some best
  simp only [Bool.and_eq_true, decide_eq_true_eq] at suits
  have count : layout.widths.length = pack.bytesUnpacked := by
    rw [← layout.count, layout.descending.length_eq]
  have fit : Fit (id :: successors maxSuccessorN id rest) layout.widths := by
    have checked := suits.2
    rw [checkIndices, layout.isMask] at checked
    exact fit_of_checkIndices (by omega) checked
  have known := successors_length_le maxSuccessorN id rest
  have enough := suits.1
  rw [length_cons] at enough
  have positive := layout.someChars
  refine ⟨?_, positive, by omega, ?_⟩
  · obtain ⟨bytes, isBytes⟩ := packed_cons
      (putFields pack.word (id :: successors maxSuccessorN id rest) pack.offsets) layout.someBytes.1
    rw [isBytes]
    simp
  · intro bufsize turns more code out isCode room
    have header := decodeHeader_packed layout fit rfl
    have fields := getFields_packed layout fit isCode
    have text : unpack pack (beNat ((beBytes 4 (putFields pack.word
        (id :: successors maxSuccessorN id rest) pack.offsets)).take pack.bytesPacked ++
          code.drop pack.bytesPacked)) = some ((c :: rest).take pack.bytesUnpacked) := by
      obtain ⟨chr, isChr, same⟩ := map_eq_some_iff.mp (chrOf_chrId isId).2
      obtain ⟨others, isOthers⟩ : ∃ n, pack.bytesUnpacked = n + 1 :=
        ⟨pack.bytesUnpacked - 1, by omega⟩
      have more := successorChrs_successors isId maxSuccessorN rest others
      rw [Nat.min_eq_left (by omega)] at more
      rw [unpack, fields, isOthers, take_succ_cons]
      simp only [isChr, bind_eq_bind, bind_some, same, more, take_succ_cons]
    generalize putFields pack.word (id :: successors maxSuccessorN id rest) pack.offsets = word
      at header fields text ⊢
    obtain ⟨bytes, isBytes⟩ := packed_cons word layout.someBytes.1
    have size : ((beBytes 4 word).take pack.bytesPacked).length = pack.bytesPacked := by
      have few := layout.someBytes.2
      simp [few]
    refine ⟨((beBytes 4 word).take pack.bytesPacked ++ code.drop pack.bytesPacked).reverse, ?_, ?_⟩
    · have few := layout.someBytes.2
      rw [length_reverse, length_append, size, length_drop, isCode]
      omega
    · rw [isBytes] at text size ⊢
      rw [length_cons] at size
      rw [cons_append, decompressLoop, header]
      have taken : (UInt8.ofNat (word / 2 ^ 24) :: (bytes ++ more)).take pack.bytesPacked =
          UInt8.ofNat (word / 2 ^ 24) :: bytes := by
        rw [← cons_append, take_left' (by simpa using size)]
      have dropped : (UInt8.ofNat (word / 2 ^ 24) :: (bytes ++ more)).drop pack.bytesPacked =
          more := by
        rw [← cons_append, drop_left' (by simpa using size)]
      have tooLong : ¬bufsize < out.length + pack.bytesUnpacked := by omega
      have corrupt : ¬(bytes ++ more).length + 1 < pack.bytesPacked := by
        rw [length_append]
        omega
      simp only [isPack, if_neg tooLong, if_neg corrupt, taken, dropped, text]

lemma undone_compressTurn (nonzero : c ≠ 0) (rest : Bytes) :
    Undone c rest (compressTurn c rest).1 (compressTurn c rest).2 := by
  unfold compressTurn
  dsimp only
  split
  · exact undone_lastResort nonzero
  · next id isId =>
    split
    · exact undone_lastResort nonzero
    · split
      · next pack best => exact undone_pack isId best
      · exact undone_lastResort nonzero

end

/-- What the compressor adds to its output decompresses to the text that it goes over. -/
lemma decompressLoop_compressLoop (enough : text.length ≤ turns) (nonzero : 0 ∉ text)
    (done : compressLoop bufsize turns text out = some packed) :
    ∃ added, packed = out ++ added ∧ (text ≠ [] → added ≠ []) ∧
      ∀ (room moreTurns : Nat) (code before : Bytes), code.length = 4 →
        added.length ≤ moreTurns → before.length + text.length ≤ room →
        decompressLoop room moreTurns added code before = .text (before ++ text) := by
  induction turns generalizing text out with
  | zero =>
    have empty := eq_nil_of_length_eq_zero (Nat.le_zero.mp enough)
    subst empty
    refine ⟨[], by simpa [compressLoop] using done.symm, by simp, ?_⟩
    intro room moreTurns code before _ _ _
    cases moreTurns <;> simp [decompressLoop]
  | succ turns ih =>
    cases text with
    | nil =>
      refine ⟨[], by simpa [compressLoop] using done.symm, by simp, ?_⟩
      intro room moreTurns code before _ _ _
      cases moreTurns <;> simp [decompressLoop]
    | cons c rest =>
      have isText : c ≠ 0 := fun zero => nonzero (by simp [zero])
      have undone := undone_compressTurn isText rest
      rw [compressLoop, if_neg isText] at done
      generalize compressTurn c rest = turn at done undone
      obtain ⟨bytes, taken⟩ := turn
      dsimp only at done undone
      split at done
      · cases done
      · have within := undone.within
        have positive := undone.someChars
        rw [length_cons] at enough
        obtain ⟨added, rfl, -, reads⟩ := ih (by rw [length_drop, length_cons]; omega)
          (fun mem => nonzero (mem_of_mem_drop mem)) done
        refine ⟨bytes ++ added, by rw [append_assoc], by simp [undone.someBytes], ?_⟩
        intro room moreTurns code before isCode turnsLeft fits
        have some_ : 0 < bytes.length := length_pos_iff.mpr undone.someBytes
        rw [length_append] at turnsLeft
        rw [length_cons] at fits
        obtain ⟨moreTurns, rfl⟩ : ∃ n, moreTurns = n + 1 := ⟨moreTurns - 1, by omega⟩
        obtain ⟨code', isCode', turn⟩ :=
          undone.decodes room moreTurns added code before isCode (by omega)
        rw [turn, reads room moreTurns code' _ isCode' (by omega), append_assoc, take_append_drop]
        rw [length_append, length_take, length_drop, length_cons]
        omega

variable {text packed : Bytes}

/-- A text without zero bytes that could be compressed comes back. -/
lemma decompress_compress (nonzero : 0 ∉ text)
    (done : compress text bufsize = some packed) (fits : text.length ≤ room) :
    decompress packed room = .text text := by
  obtain ⟨added, rfl, -, reads⟩ := decompressLoop_compressLoop le_rfl nonzero done
  exact reads room _ [0, 0, 0, 0] [] rfl le_rfl (by simpa using fits)

variable {bufsize : Nat}

lemma compress_ne_nil (nonzero : 0 ∉ text) (some_ : text ≠ [])
    (done : compress text bufsize = some packed) : packed ≠ [] := by
  obtain ⟨added, rfl, grows, -⟩ := decompressLoop_compressLoop le_rfl nonzero done
  simpa using grows some_

lemma compressLoop_length_le {bufsize : Nat} {text packed : Bytes}
    (within : out.length ≤ bufsize) (done : compressLoop bufsize turns text out = some packed) :
    packed.length ≤ bufsize := by
  induction turns generalizing text out with
  | zero =>
    cases done
    exact within
  | succ turns ih =>
    cases text with
    | nil =>
      cases done
      exact within
    | cons c rest =>
      rw [compressLoop] at done
      split at done
      · cases done
        exact within
      · dsimp only at done
        split at done
        · cases done
        · next fits => exact ih (by rw [length_append]; omega) done

lemma compress_length_le (done : compress text bufsize = some packed) :
    packed.length ≤ bufsize :=
  compressLoop_length_le (Nat.zero_le _) done

/-- Different texts are compressed to different bytes. -/
lemma compress_injective {text packed : Bytes} (nonzero : 0 ∉ text) (nonzero' : 0 ∉ text')
    (done : compress text bufsize = some packed) (done' : compress text' bufsize = some packed) :
    text = text' := by
  have back := decompress_compress nonzero done (le_max_left text.length text'.length)
  have back' := decompress_compress nonzero' done' (le_max_right text.length text'.length)
  rw [back] at back'
  exact Decompressed.text.inj back'

end Ndpi.Guarantees.Shoco
