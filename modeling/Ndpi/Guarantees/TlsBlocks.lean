import Ndpi.Source.Tls.Blocks

/-!
# The list of TLS blocks and its fingerprint

The counter of listed blocks has eight bits, their lengths have sixteen with a sign that
follows the direction of the packet, and `same_pkt` is set for every block. The text of the
list is cut to its buffer, but the hash is taken over its whole length.
-/
namespace Ndpi.Guarantees.TlsBlocks
open Lib Source.Serialization Source.Tls Source.Tls.Blocks List Access Memory

/-- The text of all blocks, which is what the loop means to print. -/
def textFrom (i : Nat) : List TlsBlock → Bytes
  | [] => []
  | block :: rest => blockText (i = 0) block ++ textFrom (i + 1) rest

lemma blockText_length (first : Bool) (block : TlsBlock) :
    0 < (blockText first block).length ∧ (blockText first block).length ≤ 11 := by
  have type : (decimal block.blockType.toNat).length ≤ 3 :=
    decimal_length_le (by decide) (by have := block.blockType.toNat_lt; omega)
  have sign : (decimalInt block.len.toInt).length ≤ 6 := by
    have low := block.len.le_toInt
    have high := block.len.toInt_lt
    have digits : (decimal block.len.toInt.natAbs).length ≤ 5 :=
      decimal_length_le (by decide) (by omega)
    unfold decimalInt
    split
    · rw [length_cons]
      omega
    · omega
  have comma : (if first then [] else [0x2C] : Bytes).length ≤ 1 := by cases first <;> decide
  unfold blockText
  rw [length_append, length_append, length_cons]
  omega

lemma textFrom_length (i : Nat) (blocks : List TlsBlock) :
    (textFrom i blocks).length ≤ 11 * blocks.length := by
  induction blocks generalizing i with
  | nil => exact le_refl _
  | cons block rest ih =>
    have one := (blockText_length (i = 0) block).2
    have others := ih (i + 1)
    rw [textFrom, length_append, length_cons]
    omega

/-- The position is advanced by the length of the text, also where it was cut. -/
lemma printBlocks_idx (fpBufLen i idx : Nat) (fpBuf : Memory) (blocks : List TlsBlock)
    (narrow : idx + (textFrom i blocks).length < 65536) :
    (printBlocks fpBufLen i idx fpBuf blocks).1 = idx + (textFrom i blocks).length := by
  induction blocks generalizing i idx fpBuf with
  | nil => rfl
  | cons block rest ih =>
    rw [textFrom, length_append] at narrow ⊢
    have moved : wrap16 (idx + (blockText (i = 0) block).length) =
        idx + (blockText (i = 0) block).length := wrap16_of_lt (by omega)
    rw [printBlocks, if_pos (blockText_length _ block).1, moved, ih _ _ _ (by omega)]
    omega

lemma snprintfAt_inside (text : Bytes) (inside : index + room ≤ m.cells.length) :
    (snprintfAt m index room text).stray = m.stray ∧
      (snprintfAt m index room text).cells.length = m.cells.length := by
  unfold snprintfAt
  split
  · exact ⟨rfl, rfl⟩
  · have length : index + (text.take (room - 1) ++ [0]).length ≤ m.cells.length := by
      rw [length_append, length_take, length_singleton]
      omega
    exact ⟨storeAll_inside _ _ _ length, storeAll_length _ _ _⟩

/-- As long as the text ends in the buffer, the room left for each block does not wrap. -/
lemma printBlocks_inside (i idx : Nat) (fpBuf : Memory)
    (size : fpBuf.cells.length = 256) (fits : idx + (textFrom i blocks).length ≤ 256) :
    (printBlocks 256 i idx fpBuf blocks).2.stray = fpBuf.stray ∧
      (printBlocks 256 i idx fpBuf blocks).2.cells.length = 256 := by
  induction blocks generalizing i idx fpBuf with
  | nil => exact ⟨rfl, size⟩
  | cons block rest ih =>
    rw [textFrom, length_append] at fits
    have some := (blockText_length (i = 0) block).1
    have room : sub32 (sub32 256 idx) 1 = 255 - idx := by
      rw [sub32_of_le (by omega : idx ≤ 256), sub32_of_le (by omega)]
      omega
    have moved : wrap16 (idx + (blockText (i = 0) block).length) =
        idx + (blockText (i = 0) block).length := wrap16_of_lt (by omega)
    obtain ⟨stray, length⟩ := snprintfAt_inside (blockText (i = 0) block)
      (by omega : idx + (255 - idx) ≤ fpBuf.cells.length)
    obtain ⟨stray', length'⟩ := ih (i + 1) (idx + (blockText (i = 0) block).length) _
      (length.trans size) (by omega)
    rw [printBlocks, if_pos some, moved, room]
    exact ⟨stray'.trans stray, length'⟩

/-- Stores and hashed bytes stay inside the buffer of 256 bytes exactly if the text of the
blocks does. -/
theorem fingerprint_inside_iff (sha256 : Bytes → Bytes) (isTcp : Bool) (blocks : List TlsBlock)
    (fpBuf : Memory) (few : blocks.length ≤ 255) (size : fpBuf.cells.length = 256)
    (clean : fpBuf.stray = []) :
    ((computeTlsBlocksFlowFingerprint sha256 isTcp blocks fpBuf 256).val.2.stray = [] ∧
      (computeTlsBlocksFlowFingerprint sha256 isTcp blocks fpBuf 256).Inside 256) ↔
      isTcp = false ∨ (textFrom 0 blocks).length ≤ 256 := by
  unfold computeTlsBlocksFlowFingerprint
  split
  · next idle =>
    refine iff_of_true ⟨clean, inside_pure⟩ ?_
    obtain udp | none := idle
    · exact .inl udp
    · rw [length_eq_zero_iff.mp none]
      exact .inr (Nat.zero_le _)
  · next idle =>
    obtain ⟨tcp, some⟩ := not_or.mp idle
    have narrow := textFrom_length 0 blocks
    have first : fpBuf.store 0 0 = { fpBuf with cells := fpBuf.cells.set 0 0 } := if_pos (by omega)
    have idx := printBlocks_idx 256 0 0 (fpBuf.store 0 0) blocks (by omega)
    rw [Nat.zero_add] at idx
    rw [or_iff_right tcp]
    rw [inside_bind, fetch_inside, idx]
    constructor
    · rintro ⟨-, zero | inside, -⟩
      · omega
      · omega
    · intro fits
      obtain ⟨stray, length⟩ := printBlocks_inside 0 0 (fpBuf.store 0 0)
        (by rw [store_length, size]) (by rw [Nat.zero_add]; exact fits)
      have room : 0 + sub32 256 1 ≤
          (printBlocks 256 0 0 (fpBuf.store 0 0) blocks).2.cells.length := by
        rw [length]
        decide
      refine ⟨?_, .inr (by omega), inside_pure⟩
      rw [bind_val, pure_val, (snprintfAt_inside _ room).1, stray, first]
      exact clean

/-- A buffer of 256 zeros. -/
def sampleBuffer : Memory := ⟨List.replicate 256 0, []⟩

theorem one_block_inside :
    (computeTlsBlocksFlowFingerprint (fun _ => []) true [⟨4, 517, true, 0⟩] sampleBuffer
        256).val.2.stray = [] ∧
      (computeTlsBlocksFlowFingerprint (fun _ => []) true [⟨4, 517, true, 0⟩] sampleBuffer
        256).Inside 256 :=
  (fingerprint_inside_iff (fun _ => []) true [⟨4, 517, true, 0⟩] sampleBuffer (by decide)
    length_replicate rfl).mpr (.inr (by decide))

/-- Thirty blocks have a text of 269 bytes: the last one is printed behind the buffer, and
the hash reads there. -/
theorem thirty_blocks_outside :
    (computeTlsBlocksFlowFingerprint (fun _ => []) true
        (List.replicate 30 ⟨4, -16384, true, 0⟩) sampleBuffer 256).val.2.stray =
      [260, 261, 262, 263, 264, 265, 266, 267, 268, 269] ∧
    268 ∈ (computeTlsBlocksFlowFingerprint (fun _ => []) true
        (List.replicate 30 ⟨4, -16384, true, 0⟩) sampleBuffer 256).reads := by
  decide +kernel

/-- A packet of a flow: `fromClient` is whether it goes from the client to the server, the
effects are those of `ndpi_search_tls_tcp` for it. -/
structure TlsPacket where
  direction : Fin 2
  fromClient : Bool
  currentTimeMs : UInt64
  effects : List TlsEffect

/-- A call for a block, the packet it was made for and its place among the calls for this
packet. -/
structure SeenBlock where
  direction : Fin 2
  fromClient : Bool
  recordType : UInt8
  handshakeType : UInt8
  blockLen : UInt16
  place : Nat

/-- The blocks in the effects of a packet, from this place on. -/
def blocksOf (direction : Fin 2) (fromClient : Bool) : Nat → List TlsEffect → List SeenBlock
  | _, [] => []
  | place, .handleBlockStat recordType handshakeType blockLen :: rest =>
    ⟨direction, fromClient, recordType, handshakeType, UInt16.ofNat blockLen, place⟩ ::
      blocksOf direction fromClient (place + 1) rest
  | place, _ :: rest => blocksOf direction fromClient place rest

def seenBlocks (packets : List TlsPacket) : List SeenBlock :=
  packets.flatMap fun p => blocksOf p.direction p.fromClient 0 p.effects

def TlsPacket.context (n : Nat) (fresh : Nat → TlsBlock) (p : TlsPacket) : StatContext :=
  ⟨true, n, p.direction, p.currentTimeMs, some fresh⟩

/-- The fields after these packets, with the allocation granted. -/
def statsAfter (n : Nat) (fresh : Nat → TlsBlock) (packets : List TlsPacket) : BlockStats :=
  packets.foldl (fun st p => packetStats (p.context n fresh) p.effects st) ⟨0, 0, none⟩

/-- The blocks that are listed. -/
def listed (st : BlockStats) : List TlsBlock :=
  (st.tlsBlocks.getD []).take st.numTlsBlocks.toNat

/-- Type and length of a block as they should be listed. -/
def SeenBlock.meant (b : SeenBlock) : UInt8 × Int :=
  ((encodeTlsBlockType b.recordType b.handshakeType).code,
    if b.fromClient then b.blockLen.toNat else -(b.blockLen.toNat : Int))

/-- Type and length of a block as they are listed. -/
def SeenBlock.kept (b : SeenBlock) : UInt8 × Int :=
  ((encodeTlsBlockType b.recordType b.handshakeType).code,
    (Int16.ofInt (if b.direction.val = 1 then -(b.blockLen.toNat : Int) else b.blockLen.toNat)).toInt)

/-- The length has sixteen bits with a sign for the direction of the packet, where 1 is taken
for the way from the server to the client. -/
def LenFits (b : SeenBlock) : Prop :=
  if b.fromClient then
    if b.direction.val = 1 then b.blockLen.toNat = 0 else b.blockLen.toNat ≤ 32767
  else
    if b.direction.val = 1 then b.blockLen.toNat ≤ 32768
    else b.blockLen.toNat = 0 ∨ b.blockLen.toNat = 32768

lemma int16_toInt_ofInt :
    (Int16.ofInt z).toInt = if z % 65536 < 32768 then z % 65536 else z % 65536 - 65536 := by
  have size : (Int16.size : Int) = 65536 := rfl
  rw [Int16.toInt_ofInt, Int.bmod_def, size]
  rfl

lemma kept_eq_meant_iff : b.kept = b.meant ↔ LenFits b := by
  have small := b.blockLen.toNat_lt
  unfold SeenBlock.kept SeenBlock.meant LenFits
  rw [Prod.mk.injEq, and_iff_right rfl, int16_toInt_ofInt]
  cases b.fromClient with
  | true =>
    rw [if_pos rfl, if_pos rfl]
    by_cases back : b.direction.val = 1
    · rw [if_pos back, if_pos back]
      split <;> omega
    · rw [if_neg back, if_neg back]
      split <;> omega
  | false =>
    rw [if_neg Bool.false_ne_true, if_neg Bool.false_ne_true]
    by_cases back : b.direction.val = 1
    · rw [if_pos back, if_pos back]
      split <;> omega
    · rw [if_neg back, if_neg back]
      split <;> omega

/-- What the fields say about the blocks seen so far. -/
structure Lists (n : Nat) (seen : List SeenBlock) (st : BlockStats) : Prop where
  count : st.numTlsBlocks.toNat = if n = 256 then seen.length % 256 else min n seen.length
  array : ∀ blocks, st.tlsBlocks = some blocks → blocks.length = n
  absent : st.tlsBlocks = none → seen = []
  content : n ≤ 255 ∨ seen.length < 256 →
    (listed st).map (fun b => ((b.blockType, b.len.toInt), b.samePkt)) =
      (seen.take n).map fun b => (b.kept, true)

/-- The array that a call works on has `n` places, and the listed blocks are at its start. -/
lemma Lists.allocated (lists : Lists n seen st) (fresh : Nat → TlsBlock) (p : TlsPacket) :
    ∃ blocks, allocateBlocks (p.context n fresh) st = some blocks ∧ blocks.length = n ∧
      blocks.take st.numTlsBlocks.toNat = listed st := by
  have count := lists.count
  unfold listed allocateBlocks
  cases array : st.tlsBlocks with
  | some blocks => exact ⟨blocks, rfl, lists.array blocks array, rfl⟩
  | none =>
    rw [lists.absent array] at count
    have zero : st.numTlsBlocks.toNat = 0 := by
      rw [count]
      split <;> simp
    refine ⟨(List.range n).map fresh, rfl, ?_, ?_⟩
    · rw [length_map, length_range]
    · rw [zero, take_zero, take_zero]

lemma take_succ_set {α : Type} {l : List α} {i : Nat} (inside : i < l.length) (a : α) :
    (l.set i a).take (i + 1) = l.take i ++ [a] := by
  rw [take_succ_eq_append_getElem (by rwa [length_set]),
    take_set_of_le (le_refl _), getElem_set_self]

section

variable {n : Nat} {seen : List SeenBlock} {st : BlockStats} {blocks : List TlsBlock}

/-- As long as the counter is below the maximum, the entry for a block is stored. -/
lemma Lists.store (lists : Lists n seen st) (most : n ≤ 256) (length : blocks.length = n)
    (start : blocks.take st.numTlsBlocks.toNat = listed st) (room : st.numTlsBlocks.toNat < n)
    {entry : TlsBlock} {b : SeenBlock} (time : UInt64)
    (stored : ((entry.blockType, entry.len.toInt), entry.samePkt) = (b.kept, true)) :
    Lists n (seen ++ [b])
      ⟨st.numTlsBlocks + 1, time, some (blocks.set st.numTlsBlocks.toNat entry)⟩ := by
  have count := lists.count
  refine ⟨?_, ?_, ?_, ?_⟩
  · dsimp only
    rw [UInt8.toNat_add, UInt8.toNat_one, length_append, length_singleton]
    split at count <;> split <;> omega
  · intro array same
    cases same
    rw [length_set, length]
  · intro none
    cases none
  · intro enough
    rw [length_append, length_singleton] at enough
    have whole : st.numTlsBlocks.toNat = seen.length := by
      split at count <;> omega
    have next : (st.numTlsBlocks + 1).toNat = seen.length + 1 := by
      rw [UInt8.toNat_add, UInt8.toNat_one]
      omega
    have before := lists.content (by omega)
    rw [← start, whole, take_of_length_le (by omega : seen.length ≤ n)] at before
    unfold listed
    dsimp only [Option.getD_some]
    rw [next, whole, take_succ_set (by omega), map_append, before,
      take_of_length_le (by rw [length_append, length_singleton]; omega),
      map_append, map_singleton, stored, map_singleton]

/-- When the counter is at the maximum, which is then below 256, nothing is stored. -/
lemma Lists.skip (lists : Lists n seen st) (positive : 1 ≤ n) (most : n ≤ 256)
    (length : blocks.length = n) (start : blocks.take st.numTlsBlocks.toNat = listed st)
    (full : ¬st.numTlsBlocks.toNat < n) (b : SeenBlock) :
    Lists n (seen ++ [b]) { st with tlsBlocks := some blocks } := by
  have count := lists.count
  have reached : n ≤ 255 ∧ n ≤ seen.length := by
    split at count <;> omega
  refine ⟨?_, ?_, ?_, ?_⟩
  · dsimp only
    rw [length_append, if_neg (by omega)]
    split at count <;> omega
  · intro array same
    cases same
    exact length
  · intro none
    cases none
  · intro _
    have before := lists.content (.inl reached.1)
    rw [take_append_of_le_length reached.2, ← before, ← start]
    rfl

/-- One block. -/
lemma Lists.block (lists : Lists n seen st) (fresh : Nat → TlsBlock) (positive : 1 ≤ n)
    (most : n ≤ 256) (p : TlsPacket) (samePacket : Bool) (recordType handshakeType : UInt8)
    (blockLen : UInt16) (place : Nat) :
    ∃ st', handleTlsBlockStat (p.context n fresh) (some samePacket) recordType handshakeType
        blockLen st = (some true, st') ∧
      Lists n (seen ++ [⟨p.direction, p.fromClient, recordType, handshakeType, blockLen, place⟩])
        st' := by
  obtain ⟨blocks, allocated, length, start⟩ := lists.allocated fresh p
  have run : (p.context n fresh).isTcp ∧ (p.context n fresh).tlsMaxNumBlocksToAnalyze ≠ 0 :=
    ⟨rfl, by dsimp only [TlsPacket.context]; omega⟩
  have maximum : (p.context n fresh).tlsMaxNumBlocksToAnalyze = n := rfl
  unfold handleTlsBlockStat
  rw [if_pos run, allocated, maximum]
  dsimp only
  split
  · next room =>
    exact ⟨_, rfl, lists.store most length start room _ rfl⟩
  · next room =>
    exact ⟨_, rfl, lists.skip positive most length start room _⟩

end

/-- The effects of one packet, by induction on them. -/
lemma Lists.effects (lists : Lists n seen st) (fresh : Nat → TlsBlock) (positive : 1 ≤ n)
    (most : n ≤ 256) (p : TlsPacket) (samePacket : Bool) (place : Nat) (effects : List TlsEffect) :
    Lists n (seen ++ blocksOf p.direction p.fromClient place effects)
      (effects.foldl (statEffect (p.context n fresh)) (some samePacket, st)).2 := by
  induction effects generalizing seen st samePacket place with
  | nil => rwa [blocksOf, append_nil]
  | cons effect rest ih =>
    rw [foldl_cons]
    cases effect with
    | handleBlockStat recordType handshakeType blockLen =>
      obtain ⟨st', called, lists'⟩ := lists.block fresh positive most p samePacket recordType
        handshakeType (UInt16.ofNat blockLen) place
      rw [statEffect, called, blocksOf, append_cons]
      exact ih lists' true (place + 1)
    | processHandshakeBlock => exact ih lists samePacket place
    | looksLikeTls => exact ih lists samePacket place
    | addConnection => exact ih lists samePacket place
    | setAlert => exact ih lists samePacket place
    | fatalAlertRisk => exact ih lists samePacket place
    | certificateProcessed => exact ih lists samePacket place

/-- All packets, by induction on them. -/
lemma statsAfter_lists (n : Nat) (fresh : Nat → TlsBlock) (positive : 1 ≤ n) (most : n ≤ 256)
    (packets : List TlsPacket) : Lists n (seenBlocks packets) (statsAfter n fresh packets) := by
  have run : ∀ (seen : List SeenBlock) (st : BlockStats), Lists n seen st →
      Lists n (seen ++ seenBlocks packets)
        (packets.foldl (fun st p => packetStats (p.context n fresh) p.effects st) st) := by
    induction packets with
    | nil =>
      intro seen st lists
      rwa [seenBlocks, flatMap_nil, append_nil]
    | cons p rest ih =>
      intro seen st lists
      have after := ih _ _ (lists.effects fresh positive most p false 0 p.effects)
      rw [seenBlocks, flatMap_cons, ← append_assoc]
      exact after
  have start : Lists n [] ⟨0, 0, none⟩ := by
    refine ⟨?_, ?_, fun _ => rfl, fun _ => ?_⟩
    · split <;> simp
    · intro blocks same
      cases same
    · rw [take_nil]
      rfl
  exact run [] _ start

lemma blocksOf_head (direction : Fin 2) (fromClient : Bool) (place : Nat)
    (effects : List TlsEffect) :
    ∀ b ∈ (blocksOf direction fromClient place effects).head?, b.place = place := by
  induction effects with
  | nil =>
    intro b member
    cases member
  | cons effect rest ih =>
    cases effect with
    | handleBlockStat =>
      intro b member
      cases member
      rfl
    | processHandshakeBlock => exact ih
    | looksLikeTls => exact ih
    | addConnection => exact ih
    | setAlert => exact ih
    | fatalAlertRisk => exact ih
    | certificateProcessed => exact ih

/-- The first block of a flow is the first one of its packet. -/
lemma seenBlocks_head :
    ∀ b ∈ (seenBlocks packets).head?, b.place = 0 := by
  induction packets with
  | nil =>
    intro b member
    cases member
  | cons p rest ih =>
    intro b member
    rw [seenBlocks, flatMap_cons] at member
    cases own : blocksOf p.direction p.fromClient 0 p.effects with
    | nil =>
      rw [own, nil_append] at member
      exact ih b member
    | cons first others =>
      have head := blocksOf_head p.direction p.fromClient 0 p.effects
      rw [own] at head member
      exact head b member

section

variable {n : Nat} {seen : List SeenBlock} {st : BlockStats}

/-- The counter alone decides whether enough blocks are listed. -/
lemma Lists.enough (lists : Lists n seen st) (most : n ≤ 256)
    (same : (listed st).length = (seen.take n).length) : n ≤ 255 ∨ seen.length < 256 := by
  have count := lists.count
  unfold listed at same
  rw [length_take, length_take] at same
  by_contra wide
  rw [if_pos (by omega)] at count
  omega

lemma Lists.meant_iff (lists : Lists n seen st) (most : n ≤ 256) :
    (listed st).map (fun b => (b.blockType, b.len.toInt)) = (seen.take n).map SeenBlock.meant ↔
      (n ≤ 255 ∨ seen.length < 256) ∧ ∀ b ∈ seen.take n, LenFits b := by
  have kept : n ≤ 255 ∨ seen.length < 256 →
      (listed st).map (fun b => (b.blockType, b.len.toInt)) =
        (seen.take n).map SeenBlock.kept := by
    intro enough
    have pairs := congrArg (List.map Prod.fst) (lists.content enough)
    rwa [map_map, map_map] at pairs
  constructor
  · intro same
    have length := congrArg List.length same
    rw [length_map, length_map] at length
    have enough := lists.enough most length
    rw [kept enough, map_inj_left] at same
    exact ⟨enough, fun b member => kept_eq_meant_iff.mp (same b member)⟩
  · rintro ⟨enough, fits⟩
    rw [kept enough, map_inj_left]
    exact fun b member => kept_eq_meant_iff.mpr (fits b member)

/-- The flag of the first block is wrong. -/
lemma Lists.samePkt_iff (lists : Lists n seen st) (positive : 1 ≤ n) (most : n ≤ 256)
    (head : ∀ b ∈ seen.head?, b.place = 0) :
    (listed st).map (fun b => ((b.blockType, b.len.toInt), b.samePkt)) =
        (seen.take n).map (fun b => (b.meant, decide (b.place ≠ 0))) ↔
      seen = [] := by
  constructor
  · intro same
    have length := congrArg List.length same
    rw [length_map, length_map] at length
    rw [lists.content (lists.enough most length), map_inj_left] at same
    cases seen with
    | nil => rfl
    | cons first rest =>
      have taken : first ∈ (first :: rest).take n := by
        rw [← Nat.sub_add_cancel positive, take_succ_cons]
        exact mem_cons_self
      have flag := congrArg Prod.snd (same first taken)
      exact absurd (head first rfl) (of_decide_eq_true flag.symm)
  · rintro rfl
    rw [lists.content (.inr (by decide)), take_nil, map_nil, map_nil]

end

/-- The first blocks are listed with their types and lengths exactly if the counter does not
wrap and the lengths fit; `same_pkt` is right only as long as there is no block. -/
theorem tls_blocks_listed_iff (n : Nat) (fresh : Nat → TlsBlock) (packets : List TlsPacket)
    (positive : 1 ≤ n) (most : n ≤ 256) :
    ((listed (statsAfter n fresh packets)).map (fun b => (b.blockType, b.len.toInt)) =
        ((seenBlocks packets).take n).map SeenBlock.meant ↔
      (n ≤ 255 ∨ (seenBlocks packets).length < 256) ∧
        ∀ b ∈ (seenBlocks packets).take n, LenFits b) ∧
    ((listed (statsAfter n fresh packets)).map
          (fun b => ((b.blockType, b.len.toInt), b.samePkt)) =
        ((seenBlocks packets).take n).map (fun b => (b.meant, decide (b.place ≠ 0))) ↔
      seenBlocks packets = []) := by
  have lists := statsAfter_lists n fresh positive most packets
  exact ⟨lists.meant_iff most, lists.samePkt_iff positive most seenBlocks_head⟩

/-- A ClientHello of 512 bytes in a packet of the client. -/
def samplePacket : TlsPacket := ⟨⟨0, Nat.zero_lt_two⟩, true, 1000, [.handleBlockStat 0x16 1 512]⟩

def blankBlock : TlsBlock := ⟨0, 0, false, 0⟩

theorem client_hello_listed :
    (listed (statsAfter 8 (fun _ => blankBlock) [samplePacket])).map
      (fun b => (b.blockType, b.len.toInt)) = [(4, 512)] :=
  ((tls_blocks_listed_iff 8 (fun _ => blankBlock) [samplePacket] (by decide) (by decide)).1.mpr
    ⟨by decide, by
      intro b member
      obtain rfl := mem_singleton.mp member
      exact (by decide : 512 ≤ 32767)⟩).trans (by decide +kernel)

/-- The only block of the flow is listed as a further one of its packet. -/
theorem client_hello_same_packet :
    (seenBlocks [samplePacket]).map (·.place) = [0] ∧
      (listed (statsAfter 8 (fun _ => blankBlock) [samplePacket])).map (·.samePkt) =
        [true] := by
  decide +kernel

end Ndpi.Guarantees.TlsBlocks
