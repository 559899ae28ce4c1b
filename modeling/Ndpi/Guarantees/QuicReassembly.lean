import Ndpi.Lib.Run
import Ndpi.Source.QuicReassembly

/-!
# Reassembly of a ClientHello

Fragments of one message arrive in any order, with duplicates and overlaps. The
bitmap marks exactly the positions received so far, so the message comes out at
the first fragment that leaves no gap, and what comes out is the message.
-/
namespace Ndpi.Guarantees.QuicReassembly
open Lib Source.QuicReassembly List Memory

/-- A message with the four bytes of its header, whose length field counts the
others, small enough for the buffer. -/
structure ClientHello where
  bytes : Bytes
  header : 4 ≤ bytes.length
  lengthField : 4 + beNat ((bytes.drop 1).take 3) = bytes.length
  small : bytes.length ≤ maxQuicReasmBufferLen

structure Fragment where
  offset : Nat
  bytes : Bytes
  deriving DecidableEq

/-- The bytes of the message from the fragment's offset on. -/
def Fragment.Of (f : Fragment) (hello : ClientHello) : Prop :=
  ∃ left right, hello.bytes = left ++ f.bytes ++ right ∧ left.length = f.offset

def Fragment.Covers (f : Fragment) (i : Nat) : Prop :=
  f.offset ≤ i ∧ i < f.offset + f.bytes.length

def Covered (received : List Fragment) (i : Nat) : Prop := ∃ f ∈ received, f.Covers i

/-- No byte of the message is missing. -/
def Complete (hello : ClientHello) (received : List Fragment) : Prop :=
  ∀ i, i < hello.bytes.length → Covered received i

def freshFlow : QuicFlow := ⟨none, none, 0⟩

/-- A call with the allocations granted; `fresh` is what a new buffer holds. -/
def receive (fresh : Nat → UInt8) (flow : QuicFlow) (f : Fragment) : Option Bytes × QuicFlow :=
  getReassembledCryptoData ⟨true, true, fresh⟩ flow f.bytes f.offset

/-- The flow after the fragments received so far. -/
def flowAfter (fresh : Nat → UInt8) (received : List Fragment) : QuicFlow :=
  run (fun flow f => (receive fresh flow f).2) freshFlow received

/-- What a buffer under reassembly knows of the message. -/
structure Gathers (hello : ClientHello) (received : List Fragment) (buf : Memory)
    (bitmap : Bitmap) (lastPos : Nat) : Prop where
  cells : buf.cells.length = maxQuicReasmBufferLen
  bits : bitmap.length = quicReasmBufferBitmapLen
  marked : ∀ i, bitmap.bitAt i = true ↔ Covered received i
  below : ∀ i, Covered received i → i < lastPos
  within : lastPos ≤ hello.bytes.length
  content : ∀ i, Covered received i → buf.cells[i]? = hello.bytes[i]?

/-- A flow is fresh until a fragment goes to the buffer. -/
def Gathering (hello : ClientHello) (received : List Fragment) (flow : QuicFlow) : Prop :=
  (flow = freshFlow ∧ received = []) ∨
    ∃ buf bitmap lastPos, flow = ⟨some buf, some bitmap, lastPos⟩ ∧
      Gathers hello received buf bitmap lastPos

lemma covered_concat :
    Covered (received ++ [f]) i ↔ Covered received i ∨ f.Covers i := by
  simp [Covered, or_and_right, exists_or]

lemma Fragment.Of.inside {f : Fragment} {hello : ClientHello} (ours : f.Of hello) :
    f.offset + f.bytes.length ≤ hello.bytes.length := by
  obtain ⟨left, right, split, start⟩ := ours
  rw [split, length_append, length_append]
  omega

lemma Fragment.Of.getElem? {f : Fragment} {hello : ClientHello} (ours : f.Of hello)
    (covers : f.Covers i) : f.bytes[i - f.offset]? = hello.bytes[i]? := by
  obtain ⟨left, right, split, start⟩ := ours
  obtain ⟨low, high⟩ := covers
  rw [split, getElem?_append_left (by rw [length_append]; omega),
    getElem?_append_right (by omega), start]

/-- The masks `update_reasm_buf_bitmap` builds, bit by bit. -/
lemma sameByteMask_bits :
    ∀ start, start < 8 → ∀ count, count ≤ 8 - start → ∀ j, j < 8 →
      ((((1#32 <<< count) - 1#32) <<< start).setWidth 8).getLsbD j =
        decide (start ≤ j ∧ j < start + count) := by decide

lemma startMask_bits : ∀ start, start < 8 → ∀ j, j < 8 →
    ((~~~((1#32 <<< start) - 1#32)).setWidth 8).getLsbD j = decide (start ≤ j) := by decide

lemma lowMask_bits : ∀ count, count ≤ 8 → ∀ j, j < 8 →
    (((1#32 <<< count) - 1#32).setWidth 8).getLsbD j = decide (j < count) := by decide

lemma lowMask_narrow : ∀ count, count ≤ 8 →
    (((1#32 <<< count) - 1#32).setWidth 8).setWidth 32 = (1#32 <<< count) - 1#32 := by decide

lemma updateReasmBufBitmap_length (bitmap : Bitmap) :
    (updateReasmBufBitmap bitmap size pos len).length = bitmap.length := by
  unfold updateReasmBufBitmap
  split
  · rfl
  · dsimp only
    split
    · rw [length_modify]
    · rw [length_modify, length_modify, Bitmap.fillBytes_length]

/-- Marking an interval marks its positions and no other. -/
lemma updateReasmBufBitmap_bitAt
    (size : bitmap.length = quicReasmBufferBitmapLen) (inside : pos + len ≤ maxQuicReasmBufferLen) :
    (updateReasmBufBitmap bitmap quicReasmBufferBitmapLen pos len).bitAt i =
      (bitmap.bitAt i || decide (pos ≤ i ∧ i < pos + len)) := by
  have bitmapLen : quicReasmBufferBitmapLen = 512 := rfl
  have bufferLen : maxQuicReasmBufferLen = 4096 := rfl
  rw [bitmapLen] at size ⊢
  rw [bufferLen] at inside
  have small : i % 8 < 8 := Nat.mod_lt _ (by decide)
  have startSmall : pos % 8 < 8 := Nat.mod_lt _ (by decide)
  have noWrap : wrap32 (pos + len - 1) = pos + len - 1 := wrap32_of_lt (by omega)
  have noWrapBit : wrap32 (pos % 8 + len - 1) = pos % 8 + len - 1 := wrap32_of_lt (by omega)
  have fits : ¬wrap32 (pos + len) > wrap32 (512 * 8) := by
    rw [wrap32_of_lt (by omega), wrap32_of_lt (by omega)]
    omega
  unfold updateReasmBufBitmap
  by_cases empty : len = 0
  · have none : ¬(pos ≤ i ∧ i < pos + len) := by omega
    rw [if_pos (.inl empty), decide_eq_false none, Bool.or_false]
  · rw [if_neg (by simp only [empty, fits]; decide)]
    simp only [noWrap, noWrapBit]
    split
    · next same =>
      rw [Bitmap.bitAt_or _ _ _ (by omega),
        sameByteMask_bits _ startSmall _ (by omega) _ small, ← Bool.decide_and]
      congr 2
      apply propext
      omega
    · next apart =>
      rw [Bitmap.bitAt_or _ _ _ (by rw [length_modify, Bitmap.fillBytes_length]; omega),
        Bitmap.bitAt_or _ _ _ (by rw [Bitmap.fillBytes_length]; omega),
        Bitmap.bitAt_fillBytes _ _ _ _ (by omega), startMask_bits _ startSmall _ small,
        lowMask_bits _ (by omega) _ small, Bool.or_assoc, Bool.or_assoc]
      simp only [← Bool.decide_and, ← Bool.decide_or]
      congr 2
      apply propext
      omega

/-- Without marks behind its end, a range is complete exactly if all its positions
are marked. -/
lemma isReasmBufComplete_iff (above : ∀ i, len ≤ i → bitmap.bitAt i = false) :
    isReasmBufComplete bitmap len = true ↔ ∀ i, i < len → bitmap.bitAt i = true := by
  have rest : len % 8 < 8 := Nat.mod_lt _ (by decide)
  rw [Bitmap.full_range_iff _ (lowMask_bits (len % 8) (by omega)) above]
  have wide : ∀ byte : BitVec 8, byte.setWidth 32 = (1#32 <<< (len % 8)) - 1#32 ↔
      byte = ((1#32 <<< (len % 8)) - 1#32).setWidth 8 := by
    intro byte
    constructor
    · intro same
      rw [← same]
      exact (BitVec.setWidth_setWidth_of_le byte (by decide)).trans (BitVec.setWidth_eq byte) |>.symm
    · rintro rfl
      exact lowMask_narrow _ (by omega)
  simp only [isReasmBufComplete, Bool.and_eq_true, all_eq_true, mem_range, beq_iff_eq,
    Bool.or_eq_true, wide]
  exact and_congr_right fun _ => or_iff_not_imp_left

lemma lengthField_eq (bytes : Bytes) (header : 4 ≤ bytes.length) :
    beNat ((bytes.drop 1).take 3) = (bytes[1]?.getD 0).toNat * 65536 +
      (bytes[2]?.getD 0).toNat * 256 + (bytes[3]?.getD 0).toNat := by
  match bytes, header with
  | _ :: b1 :: b2 :: b3 :: _, _ =>
    show ((0 * 256 + b1.toNat) * 256 + b2.toNat) * 256 + b3.toNat =
      b1.toNat * 65536 + b2.toNat * 256 + b3.toNat
    omega

/-- The length field found in a buffer that starts as the message does. -/
lemma isChComplete_iff {hello : ClientHello} {buf : Bytes}
    (agree : 4 ≤ len → ∀ i, i < 4 → buf[i]? = hello.bytes[i]?) :
    isChComplete buf len = true ↔ len = hello.bytes.length := by
  have header := hello.header
  have field := hello.lengthField
  rw [lengthField_eq _ header] at field
  unfold isChComplete
  split
  · next long =>
    simp only [agree long 1 (by decide), agree long 2 (by decide), agree long 3 (by decide),
      beq_iff_eq]
    omega
  · next short =>
    apply iff_of_false (by decide)
    omega

variable {hello : ClientHello} {received : List Fragment} {f : Fragment} (fresh : Nat → UInt8)

lemma Gathering.allocated (gathering : Gathering hello received flow) :
    ∃ buf bitmap lastPos, allocateReasm ⟨true, true, fresh⟩ flow =
      ⟨some buf, some bitmap, lastPos⟩ ∧ Gathers hello received buf bitmap lastPos := by
  rcases gathering with ⟨rfl, rfl⟩ | ⟨buf, bitmap, lastPos, rfl, gathers⟩
  · have none : ∀ i, ¬Covered [] i := by
      rintro i ⟨f, member, _⟩
      cases member
    refine ⟨_, _, _, rfl, ?_⟩
    refine ⟨?_, length_replicate, fun i => ?_, fun i covered => absurd covered (none i),
      Nat.zero_le _, fun i covered => absurd covered (none i)⟩
    · rw [length_map, length_range]
    · rw [Bitmap.bitAt_replicate_zero]
      exact iff_of_false (by decide) (none i)
  · exact ⟨buf, bitmap, lastPos, rfl, gathers⟩

section
variable {buf : Memory} {bitmap : Bitmap} {lastPos : Nat}
  (gathers : Gathers hello received buf bitmap lastPos)
include gathers

/-- Copying a fragment of the message keeps the buffer a part of it. -/
lemma Gathers.copy (ours : f.Of hello) :
    Gathers hello (received ++ [f]) (buf.storeAll f.offset f.bytes)
      (updateReasmBufBitmap bitmap quicReasmBufferBitmapLen f.offset f.bytes.length)
      (if f.offset + f.bytes.length > lastPos then f.offset + f.bytes.length else lastPos) := by
  have inside := ours.inside
  have room : f.offset + f.bytes.length ≤ maxQuicReasmBufferLen := inside.trans hello.small
  refine ⟨?_, ?_, fun i => ?_, fun i covered => ?_, ?_, fun i covered => ?_⟩
  · rw [storeAll_length]
    exact gathers.cells
  · rw [updateReasmBufBitmap_length]
    exact gathers.bits
  · rw [updateReasmBufBitmap_bitAt gathers.bits room, Bool.or_eq_true, gathers.marked,
      decide_eq_true_iff, covered_concat]
    rfl
  · rcases covered_concat.mp covered with old | ⟨low, high⟩
    · have bound := gathers.below i old
      split <;> omega
    · split <;> omega
  · have within := gathers.within
    split <;> omega
  · rw [storeAll_getElem? _ _ _ _ (by rw [gathers.cells]; exact room)]
    split
    · next here => exact ours.getElem? here
    · next elsewhere =>
      rcases covered_concat.mp covered with old | new
      · exact gathers.content i old
      · exact absurd new elsewhere

/-- The two tests on the buffer find exactly the complete message. -/
lemma Gathers.complete_iff :
    (isReasmBufComplete bitmap lastPos && isChComplete buf.cells lastPos) = true ↔
      Complete hello received := by
  have above : ∀ i, lastPos ≤ i → bitmap.bitAt i = false := by
    intro i high
    rw [Bool.eq_false_iff, ne_eq, gathers.marked]
    intro covered
    have bound := gathers.below i covered
    omega
  have header := hello.header
  rw [Bool.and_eq_true, isReasmBufComplete_iff above]
  simp only [gathers.marked]
  have found : (∀ i, i < lastPos → Covered received i) →
      (isChComplete buf.cells lastPos = true ↔ lastPos = hello.bytes.length) := by
    intro all
    refine isChComplete_iff fun long i low => ?_
    exact gathers.content i (all i (by omega))
  constructor
  · rintro ⟨all, complete⟩ i low
    exact all i ((found all).mp complete ▸ low)
  · intro complete
    have reached := gathers.below _ (complete (hello.bytes.length - 1) (by omega))
    have within := gathers.within
    have all : ∀ i, i < lastPos → Covered received i := fun i low => complete i (by omega)
    exact ⟨all, (found all).mpr (by omega)⟩

/-- A complete buffer holds the message. -/
lemma Gathers.take_eq (complete : Complete hello received) :
    buf.cells.take lastPos = hello.bytes := by
  have header := hello.header
  have reached := gathers.below _ (complete (hello.bytes.length - 1) (by omega))
  have within := gathers.within
  apply ext_getElem?
  intro i
  rw [getElem?_take]
  split
  · exact gathers.content i (complete i (by omega))
  · rw [getElem?_eq_none (by omega)]

end

/-- The fast path takes exactly the fragment that is the message. -/
lemma fastPath_iff (ours : f.Of hello) :
    (f.offset = 0 ∧ isChComplete f.bytes f.bytes.length = true) ↔ f.bytes = hello.bytes := by
  have inside := ours.inside
  have agree : f.offset = 0 → 4 ≤ f.bytes.length → ∀ i, i < 4 →
      f.bytes[i]? = hello.bytes[i]? := by
    intro start long i low
    have here := ours.getElem? (show f.Covers i from ⟨by omega, by omega⟩)
    rwa [start] at here
  constructor
  · rintro ⟨start, complete⟩
    have size := (isChComplete_iff (agree start)).mp complete
    obtain ⟨left, right, split, offset⟩ := ours
    have noLeft : left = [] := length_eq_zero_iff.mp (offset.trans start)
    subst noLeft
    rw [nil_append] at split
    have noRight : right = [] := by
      rw [split, length_append] at size
      exact length_eq_zero_iff.mp (by omega)
    rw [split, noRight, append_nil]
  · intro whole
    have start : f.offset = 0 := by
      rw [whole] at inside
      omega
    refine ⟨start, (isChComplete_iff (agree start)).mpr ?_⟩
    rw [whole]

/-- What a call answers when its fragment goes to the buffer. -/
lemma Gathering.slowPath (gathering : Gathering hello received flow)
    (ours : f.Of hello) (part : f.bytes ≠ hello.bytes) :
    Gathering hello (received ++ [f]) (receive fresh flow f).2 ∧
      ((receive fresh flow f).1 = some hello.bytes ∧ Complete hello (received ++ [f]) ∨
        (receive fresh flow f).1 = none ∧ ¬Complete hello (received ++ [f])) := by
  obtain ⟨buf, bitmap, lastPos, allocated, gathers⟩ := gathering.allocated fresh
  have copied := gathers.copy ours
  have room : f.offset + f.bytes.length ≤ 4096 := ours.inside.trans hello.small
  have noWrap : (f.offset + f.bytes.length) % 18446744073709551616 =
      f.offset + f.bytes.length := Nat.mod_eq_of_lt (by omega)
  have fits : ¬f.offset + f.bytes.length > maxQuicReasmBufferLen := not_lt.mpr room
  simp only [receive, getReassembledCryptoData, if_neg (mt (fastPath_iff ours).mp part), reassemble,
    allocated, noWrap, if_neg fits, copyFragment, Option.map_some, reduceCtorEq, and_false,
    if_false, wrap32_of_lt (show f.offset < 4294967296 by omega),
    wrap32_of_lt (show f.bytes.length < 4294967296 by omega)]
  generalize (if f.offset + f.bytes.length > lastPos then f.offset + f.bytes.length else lastPos) =
    reached at copied ⊢
  have gathered := copied.complete_iff
  split
  · next complete =>
    have all := gathered.mp complete
    exact ⟨.inr ⟨_, _, _, rfl, copied⟩, .inl ⟨congrArg some (copied.take_eq all), all⟩⟩
  · next incomplete =>
    exact ⟨.inr ⟨_, _, _, rfl, copied⟩, .inr ⟨rfl, mt gathered.mpr incomplete⟩⟩

lemma receive_fastPath (ours : f.Of hello) (whole : f.bytes = hello.bytes) :
    receive fresh flow f = (some hello.bytes, flow) := by
  rw [receive, getReassembledCryptoData, if_pos ((fastPath_iff ours).mpr whole), whole]

/-- The fragments that went to the buffer. -/
def buffered (hello : ClientHello) (received : List Fragment) : List Fragment :=
  received.filter fun f => f.bytes ≠ hello.bytes

lemma flowAfter_concat (received : List Fragment) (f : Fragment) :
    flowAfter fresh (received ++ [f]) = (receive fresh (flowAfter fresh received) f).2 :=
  run_concat _ freshFlow received f

lemma buffered_concat (hello : ClientHello) (received : List Fragment) (f : Fragment) :
    buffered hello (received ++ [f]) =
      if f.bytes = hello.bytes then buffered hello received else buffered hello received ++ [f] := by
  rw [buffered, filter_append]
  split
  · next whole => simp [buffered, whole]
  · next part => simp [buffered, part]

/-- Every flow that received fragments of the message gathers those buffered. -/
lemma gathering_flowAfter {hello : ClientHello} (fresh : Nat → UInt8) {received : List Fragment}
    (ours : ∀ f ∈ received, f.Of hello) :
    Gathering hello (buffered hello received) (flowAfter fresh received) := by
  induction received using List.reverseRecOn with
  | nil => exact .inl ⟨rfl, rfl⟩
  | append_singleton received f ih =>
    have before := ih fun g member => ours g (mem_append_left _ member)
    have last := ours f (mem_append_right _ (mem_singleton_self f))
    rw [flowAfter_concat, buffered_concat]
    split
    · next whole =>
      rw [receive_fastPath fresh last whole]
      exact before
    · next part => exact (before.slowPath fresh last part).1

/-- The reassembler is pending exactly as long as its buffer has a gap. -/
theorem pending_iff (hello : ClientHello) (fresh : Nat → UInt8) (received : List Fragment)
    (ours : ∀ f ∈ received, f.Of hello) :
    isChReassemblerPending (flowAfter fresh received) = true ↔
      (flowAfter fresh received).quicReasmBuf ≠ none ∧
        ¬Complete hello (buffered hello received) := by
  rcases gathering_flowAfter fresh ours with
    ⟨unused, _⟩ | ⟨buf, bitmap, lastPos, used, gathers⟩
  · rw [unused]
    simp [isChReassemblerPending, freshFlow]
  · rw [used, ← gathers.complete_iff]
    simp only [isChReassemblerPending, Bool.not_eq_true', ← Bool.not_eq_true, ne_eq, reduceCtorEq,
      not_false_eq_true, true_and]

lemma Complete.mono {some all : List Fragment} (subset : some ⊆ all)
    (complete : Complete hello some) : Complete hello all := by
  intro i low
  obtain ⟨f, member, covers⟩ := complete i low
  exact ⟨f, subset member, covers⟩

lemma complete_of_whole (member : f ∈ received) (ours : f.Of hello)
    (whole : f.bytes = hello.bytes) :
    Complete hello received := by
  intro i low
  have inside := ours.inside
  rw [whole] at inside
  refine ⟨f, member, by omega, ?_⟩
  rw [whole]
  omega

/-- As long as the message has a gap, every fragment was buffered. -/
lemma buffered_eq (ours : ∀ f ∈ received, f.Of hello) (gap : ¬Complete hello received) :
    buffered hello received = received := by
  refine filter_eq_self.mpr fun f member => decide_eq_true ?_
  intro whole
  exact gap (complete_of_whole member (ours f member) whole)

/-- Data is returned at the first fragment after which the message has no gap, and
at none before; whatever is returned, then or later, is the message. -/
theorem crypto_data_at_first_cover (hello : ClientHello) (fresh : Nat → UInt8)
    (before : List Fragment) (f : Fragment) (ours : ∀ g ∈ before ++ [f], g.Of hello) :
    (∀ data, (receive fresh (flowAfter fresh before) f).1 = some data → data = hello.bytes) ∧
      (¬Complete hello before →
        ((receive fresh (flowAfter fresh before) f).1 = some hello.bytes ↔
          Complete hello (before ++ [f]))) := by
  have earlier : ∀ g ∈ before, g.Of hello := fun g member =>
    ours g (mem_append_left _ member)
  have last : f.Of hello := ours f (mem_append_right _ (mem_singleton_self f))
  have gathering := gathering_flowAfter fresh earlier
  by_cases whole : f.bytes = hello.bytes
  · rw [receive_fastPath fresh last whole]
    refine ⟨fun data returned => (Option.some.inj returned).symm, fun _ => ?_⟩
    exact iff_of_true rfl (complete_of_whole
      (mem_append_right _ (mem_singleton_self f)) last whole)
  · rcases (gathering.slowPath fresh last whole).2 with ⟨returned, complete⟩ | ⟨nothing, gap⟩
    · rw [returned]
      refine ⟨fun data same => (Option.some.inj same).symm, fun _ => iff_of_true rfl ?_⟩
      refine complete.mono (append_subset.mpr ⟨fun g member => ?_, ?_⟩)
      · exact mem_append_left _ (mem_filter.mp member).1
      · exact subset_append_right _ _
    · rw [nothing]
      refine ⟨fun data same => (by cases same), fun open' => iff_of_false nofun ?_⟩
      rwa [buffered_eq earlier open'] at gap

def sampleHello : ClientHello := ⟨[1, 0, 0, 2, 7, 8], by decide, by decide, by decide⟩

/-- The end and the start of a message, with two bytes missing between them. -/
theorem pending_iff_sample :
    isChReassemblerPending (flowAfter (fun _ => 0) [⟨4, [7, 8]⟩, ⟨0, [1, 0]⟩]) = true := by
  have ours : ∀ f ∈ [⟨4, [7, 8]⟩, ⟨0, [1, 0]⟩], Fragment.Of f sampleHello := by
    intro f member
    obtain rfl | rfl := mem_pair.mp member
    · exact ⟨[1, 0, 0, 2], [], rfl, rfl⟩
    · exact ⟨[], [0, 2, 7, 8], rfl, rfl⟩
  refine (pending_iff sampleHello _ _ ours).mpr ⟨by decide +kernel, fun complete => ?_⟩
  obtain ⟨f, member, low, high⟩ := complete 2 (by decide)
  obtain rfl | rfl := mem_pair.mp (mem_filter.mp member).1
  · exact absurd low (by decide)
  · exact absurd high (by decide)

/-- The end of a message first, then an overlapping start. -/
theorem crypto_data_at_first_cover_sample :
    (∀ g ∈ [⟨4, [7, 8]⟩] ++ [⟨0, [1, 0, 0, 2, 7]⟩], Fragment.Of g sampleHello) ∧
      (receive (fun _ => 0) (flowAfter (fun _ => 0) [⟨4, [7, 8]⟩]) ⟨0, [1, 0, 0, 2, 7]⟩).1 =
        some [1, 0, 0, 2, 7, 8] := by
  have ours : ∀ g ∈ [⟨4, [7, 8]⟩] ++ [⟨0, [1, 0, 0, 2, 7]⟩], Fragment.Of g sampleHello := by
    intro g member
    simp only [singleton_append, mem_cons, not_mem_nil, or_false] at member
    rcases member with rfl | rfl
    · exact ⟨[1, 0, 0, 2], [], rfl, rfl⟩
    · exact ⟨[], [8], rfl, rfl⟩
  refine ⟨ours, ((crypto_data_at_first_cover sampleHello (fun _ => 0) _ _ ours).2 ?_).mpr ?_⟩
  · intro complete
    obtain ⟨f, member, low, _⟩ := complete 0 (by decide)
    cases mem_singleton.mp member
    cases low
  · intro i low
    have bound : i < 6 := low
    by_cases early : i < 5
    · exact ⟨⟨0, [1, 0, 0, 2, 7]⟩, by simp, Nat.zero_le i, early⟩
    · refine ⟨⟨4, [7, 8]⟩, by simp, ?_, bound⟩
      show 4 ≤ i
      omega

end Ndpi.Guarantees.QuicReassembly
