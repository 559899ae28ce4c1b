import Mathlib.Data.List.SplitBy
import Mathlib.Tactic.IntervalCases
import Ndpi.Source.Tls.ObfuscatedHeuristic

/-!
# The windows of the heuristic for obfuscated TLS

A burst is a longest sequence of consecutive packets of one direction, a window four
consecutive bursts of which the client sends the first. Each of the two sets holds
the bursts from an even place on; the places are two apart, and a set that is full
when the client starts a burst is evaluated and moves on by four.
-/
namespace Ndpi.Guarantees.ObfuscatedHeuristic
open Lib Source.Tls.ObfuscatedHeuristic List

section

/-- The packets that are counted: they have a payload and, in the direction of each
packet, either no Change-Cipher is awaited or one was seen before. -/
def counted (client server : Bool) : List Packet → List Packet
  | [] => []
  | p :: rest =>
    if p.payload = [] then counted client server rest
    else if if p.fromClient then client else server then p :: counted client server rest
    else if p.payload.head? = some 0x14 then
      counted (client || p.fromClient) (server || !p.fromClient) rest
    else counted client server rest

/-- The packets of the trace that the heuristic counts in this flow. -/
def countedIn (flow : Flow) (trace : List Packet) : List Packet :=
  counted (!flow.isTlsInTlsHeur || flow.changeCipherFromClient)
    (!flow.isTlsInTlsHeur || flow.changeCipherFromServer) trace

abbrev Burst := List Packet

def bursts (packets : List Packet) : List Burst :=
  packets.splitBy fun p q => p.fromClient == q.fromClient

def FromClient (burst : Burst) : Prop := ∀ p ∈ burst, p.fromClient

instance (burst : Burst) : Decidable (FromClient burst) := by
  unfold FromClient
  infer_instance

/-- The windows that are complete: another burst has started after them. -/
def windows : List Burst → List (List Burst)
  | [] => []
  | burst :: rest =>
    if FromClient burst ∧ 4 ≤ rest.length then (burst :: rest.take 3) :: windows rest
    else windows rest

def burstBytes (overhead : Nat) (burst : Burst) : Nat :=
  (burst.map fun p => p.payloadPacketLen - overhead).sum

/-- The bytes and the packets of each burst of a window. -/
def windowTotals (overhead : Nat) (window : List Burst) : List Nat × List Nat :=
  (window.map (burstBytes overhead), window.map List.length)

def setTotals (set : HeuristicSet) : List Nat × List Nat :=
  (set.bytes.map UInt32.toNat, set.pkts.map UInt32.toNat)

lemma bursts_flatten (packets : List Packet) : (bursts packets).flatten = packets :=
  flatten_splitBy _ packets

variable {packets : List Packet}

lemma bursts_turn (turn : ∀ last ∈ packets.getLast?, last.fromClient ≠ p.fromClient) :
    bursts (packets ++ [p]) = bursts packets ++ [[p]] := by
  unfold bursts
  rw [splitBy_append_cons []]
  · rfl
  · intro last within
    exact beq_eq_false_iff_ne.mpr (turn last within)

lemma bursts_same (split : bursts packets = before ++ [burst])
    (ends : packets.getLast? = some last) (same : last.fromClient = p.fromClient) :
    bursts (packets ++ [p]) = before ++ [burst ++ [p]] := by
  obtain ⟨joined, nonempty, chains, turns⟩ := splitBy_eq_iff.mp split
  have burst_ne : burst ≠ [] := fun empty => nonempty (by simp [empty])
  have burst_last : burst.getLast? = some last := by
    rw [joined, flatten_append, flatten_singleton, getLast?_append_of_ne_nil _ burst_ne] at ends
    exact ends
  refine splitBy_eq_iff.mpr ⟨?_, ?_, ?_, ?_⟩
  · rw [joined]
    simp
  · simp only [mem_append, mem_singleton, not_or] at nonempty ⊢
    exact ⟨nonempty.1, by simp⟩
  · intro other within
    rcases mem_append.mp within with early | late
    · exact chains other (mem_append_left _ early)
    · rw [mem_singleton.mp late, isChain_append]
      refine ⟨chains burst (by simp), isChain_singleton p, ?_⟩
      intro x isLast y isFirst
      rw [burst_last] at isLast
      cases isLast
      cases isFirst
      exact beq_iff_eq.mpr same
  · rw [isChain_append] at turns ⊢
    refine ⟨turns.1, isChain_singleton _, ?_⟩
    intro x isLast y isFirst
    cases isFirst
    obtain ⟨ne, _, differ⟩ := turns.2.2 x isLast burst rfl
    refine ⟨ne, by simp, ?_⟩
    rw [head_append_of_ne_nil burst_ne]
    exact differ

/-- Which windows are complete does not depend on the last burst. -/
lemma windows_concat :
    windows (before ++ [last]) = windows before ++
      if 4 ≤ before.length ∧ ∀ burst ∈ before[before.length - 4]?, FromClient burst then
        [before.drop (before.length - 4)]
      else [] := by
  induction before with
  | nil => simp [windows]
  | cons burst before ih =>
    simp only [cons_append, windows, ih, length_append, length_cons, length_nil]
    by_cases long : 4 ≤ before.length
    · have place : before.length + 1 - 4 = before.length - 4 + 1 := by omega
      have keep : (before ++ [last]).take 3 = before.take 3 := take_append_of_le_length (by omega)
      rw [place, getElem?_cons_succ, drop_succ_cons, keep]
      by_cases client : FromClient burst
      · simp [client, long, show 4 ≤ before.length + 1 by omega]
      · simp [client, long, show 4 ≤ before.length + 1 by omega]
    · by_cases full : before.length = 3
      · obtain ⟨b, c, d, rfl⟩ := length_eq_three.mp full
        simp [windows]
      · simp [show ¬4 ≤ before.length by omega, show ¬4 ≤ before.length + 1 by omega]

end

section

/-- The four counters while the first ones are in use. -/
def padded (values : List UInt32) : List UInt32 := values ++ List.replicate (4 - values.length) 0

/-- A set that holds these bursts. -/
def holding (overhead : Nat) (window : List Burst) : HeuristicSet :=
  ⟨window.length, padded (window.map fun burst => UInt32.ofNat (burstBytes overhead burst)),
    padded (window.map fun burst => UInt32.ofNat burst.length)⟩

/-- A full set as `check_set` gets it. -/
def completed (overhead : Nat) (window : List Burst) : HeuristicSet :=
  { holding overhead window with stage := 5 }

lemma modify_between (f : α → α) (after : List α) (value : α) :
    (before ++ value :: after).modify before.length f = before ++ f value :: after := by
  induction before with
  | nil => rfl
  | cons head before ih => exact congrArg (head :: ·) ih

variable (values : List UInt32)

lemma padded_last (value more : UInt32) :
    (padded (values ++ [value])).modify values.length (· + more) =
      padded (values ++ [value + more]) := by
  unfold padded
  rw [append_assoc, singleton_append, modify_between]
  simp

lemma padded_next (room : values.length < 4) (more : UInt32) :
    (padded values).modify values.length (· + more) = padded (values ++ [more]) := by
  have free : 4 - values.length = 4 - (values.length + 1) + 1 := by omega
  unfold padded
  rw [free, replicate_succ, modify_between, UInt32.zero_add]
  simp

/-- What the packet adds to the bytes of its burst. -/
def sizeOf32 (overhead : Nat) (p : Packet) : UInt32 :=
  UInt32.ofNat (p.payloadPacketLen - overhead)

lemma burstBytes_concat (overhead : Nat) (p : Packet) :
    UInt32.ofNat (burstBytes overhead (burst ++ [p])) =
      UInt32.ofNat (burstBytes overhead burst) + sizeOf32 overhead p := by
  simp [burstBytes, sizeOf32]

lemma burstBytes_single (overhead : Nat) (p : Packet) :
    UInt32.ofNat (burstBytes overhead [p]) = sizeOf32 overhead p := by
  simp [burstBytes, sizeOf32]

lemma holding_single (overhead : Nat) (p : Packet) :
    holding overhead [[p]] = ⟨1, [sizeOf32 overhead p, 0, 0, 0], [1, 0, 0, 0]⟩ := by
  simp [holding, padded, burstBytes_single]

lemma switchStage_same (used : 0 < stage) (few : stage ≤ 4) :
    switchStage mayOpen (decide (stage % 2 = 1)) stage = .stage stage := by
  interval_cases stage <;> rfl

lemma switchStage_turn (used : 0 < stage) (few : stage ≤ 4) :
    switchStage mayOpen (decide (stage % 2 = 0)) stage = .stage (stage + 1) := by
  interval_cases stage <;> rfl

section

variable (checkSet : HeuristicSet → Bool) (mayOpen : Bool) {overhead : Nat} {p : Packet}

lemma holding_last :
    (⟨before.length + 1,
      (holding overhead (before ++ [burst])).bytes.modify before.length (· + sizeOf32 overhead p),
      (holding overhead (before ++ [burst])).pkts.modify before.length (· + 1)⟩ : HeuristicSet) =
      holding overhead (before ++ [burst ++ [p]]) := by
  have bytes := padded_last (before.map fun burst => UInt32.ofNat (burstBytes overhead burst))
    (UInt32.ofNat (burstBytes overhead burst)) (sizeOf32 overhead p)
  have pkts := padded_last (before.map fun burst => UInt32.ofNat burst.length)
    (UInt32.ofNat burst.length) 1
  rw [length_map] at bytes pkts
  simp [holding, bytes, pkts, burstBytes_concat]

variable {window : List Burst}

lemma holding_next (room : window.length < 4) :
    (⟨window.length + 1,
      (holding overhead window).bytes.modify window.length (· + sizeOf32 overhead p),
      (holding overhead window).pkts.modify window.length (· + 1)⟩ : HeuristicSet) =
      holding overhead (window ++ [[p]]) := by
  have bytes := padded_next (window.map fun burst => UInt32.ofNat (burstBytes overhead burst))
    (by rwa [length_map]) (sizeOf32 overhead p)
  have pkts := padded_next (window.map fun burst => UInt32.ofNat burst.length)
    (by rwa [length_map]) 1
  rw [length_map] at bytes pkts
  simp [holding, bytes, pkts, burstBytes_single]

lemma updateSet_same (room : before.length < 4)
    (same : p.fromClient = decide ((before.length + 1) % 2 = 1)) :
    updateSet checkSet mayOpen p.fromClient (sizeOf32 overhead p)
        (holding overhead (before ++ [burst])) =
      ⟨.goOn, holding overhead (before ++ [burst ++ [p]]), []⟩ := by
  have stage : (holding overhead (before ++ [burst])).stage = before.length + 1 := by
    simp [holding]
  unfold updateSet
  rw [stage, same, switchStage_same (by omega) (show before.length + 1 ≤ 4 from room)]
  simp [show before.length + 1 ≠ 5 by omega, holding_last]

lemma updateSet_turn (used : 0 < window.length) (room : window.length < 4)
    (turn : p.fromClient = decide (window.length % 2 = 0)) :
    updateSet checkSet mayOpen p.fromClient (sizeOf32 overhead p) (holding overhead window) =
      ⟨.goOn, holding overhead (window ++ [[p]]), []⟩ := by
  have stage : (holding overhead window).stage = window.length := rfl
  unfold updateSet
  rw [stage, turn, switchStage_turn used (le_of_lt room)]
  simp [show window.length + 1 ≠ 5 by omega, holding_next room]

lemma updateSet_full (full : window.length = 4) (client : p.fromClient = true)
    (rejects : checkSet (completed overhead window) = false) :
    updateSet checkSet mayOpen p.fromClient (sizeOf32 overhead p) (holding overhead window) =
      ⟨.goOn, holding overhead [[p]], [completed overhead window]⟩ := by
  have stage : (holding overhead window).stage = 4 := full
  unfold updateSet
  rw [stage, client, holding_single]
  rw [if_neg]
  · rfl
  · exact fun accepted => Bool.false_ne_true (rejects.symm.trans accepted)

lemma updateSet_open (client : p.fromClient = true) :
    updateSet checkSet true p.fromClient (sizeOf32 overhead p) (holding overhead []) =
      ⟨.goOn, holding overhead [[p]], []⟩ := by
  rw [client, holding_single]
  simp [updateSet, switchStage, holding, padded]

end

end

section

/-- How a packet changes bursts of which the client has sent the first. -/
inductive Advances (p : Packet) : List Burst → List Burst → Prop
  | same {before : List Burst} {burst : Burst}
      (same : p.fromClient = decide ((before.length + 1) % 2 = 1)) :
      Advances p (before ++ [burst]) (before ++ [burst ++ [p]])
  | turn {before : List Burst} (turn : p.fromClient = decide (before.length % 2 = 0)) :
      Advances p before (before ++ [[p]])

/-- The client sends the bursts with even places, the server the others. -/
def Alternating (all : List Burst) : Prop :=
  ∀ place burst, all[place]? = some burst →
    burst ≠ [] ∧ ∀ p ∈ burst, p.fromClient = decide (place % 2 = 0)

lemma getElem?_concat_cases (found : (before ++ [last])[place]? = some value) :
    before[place]? = some value ∨ place = before.length ∧ last = value := by
  rcases Nat.lt_trichotomy place before.length with early | here | late
  · exact .inl (by rwa [getElem?_append_left early] at found)
  · subst here
    rw [getElem?_concat_length] at found
    exact .inr ⟨rfl, Option.some.inj found⟩
  · rw [getElem?_eq_none (by simp; omega)] at found
    cases found

lemma Advances.alternating {all next : List Burst} (advances : Advances p all next)
    (alternating : Alternating all) : Alternating next := by
  intro place burst found
  cases advances with
  | @same before last same =>
    rcases getElem?_concat_cases found with early | ⟨here, rfl⟩
    · apply alternating place burst
      rwa [getElem?_append_left (List.getElem?_eq_some_iff.mp early).1]
    · subst here
      refine ⟨by simp, fun q within => ?_⟩
      rcases mem_append.mp within with old | new
      · exact (alternating _ last getElem?_concat_length).2 q old
      · rw [mem_singleton.mp new, same]
        exact decide_eq_decide.mpr (by omega)
  | turn turn =>
    rcases getElem?_concat_cases found with early | ⟨here, rfl⟩
    · exact alternating place burst early
    · refine ⟨by simp, fun q within => ?_⟩
      rw [mem_singleton.mp within, turn, here]

variable {packets : List Packet}

lemma last_fromClient (alternating : Alternating (bursts packets))
    (split : bursts packets = before ++ [burst]) (ends : packets.getLast? = some last) :
    last.fromClient = decide (before.length % 2 = 0) := by
  have within : burst ∈ bursts packets := by
    rw [split]
    exact mem_concat_self
  have burst_ne : burst ≠ [] := ne_nil_of_mem_splitBy within
  have joined := bursts_flatten packets
  rw [split, flatten_append, flatten_singleton] at joined
  rw [← joined, getLast?_append_of_ne_nil _ burst_ne] at ends
  refine (alternating before.length burst ?_).2 last (mem_of_getLast? ends)
  rw [split, getElem?_concat_length]

lemma bursts_advances
    (alternating : Alternating (bursts packets)) (client : packets = [] → p.fromClient = true) :
    Advances p (bursts packets) (bursts (packets ++ [p])) := by
  cases ends : packets.getLast? with
  | none =>
    have empty := getLast?_eq_none_iff.mp ends
    subst empty
    exact .turn (client rfl)
  | some last =>
    have nonempty : bursts packets ≠ [] := by
      refine splitBy_ne_nil.mpr ?_
      intro empty
      rw [empty] at ends
      cases ends
    obtain ⟨before, burst, split⟩ := (eq_nil_or_concat (bursts packets)).resolve_left nonempty
    rw [concat_eq_append] at split
    have last_dir := last_fromClient alternating split ends
    by_cases same : last.fromClient = p.fromClient
    · rw [bursts_same split ends same, split]
      refine .same ?_
      rw [← same, last_dir]
      exact decide_eq_decide.mpr (by omega)
    · have turns : ∀ other ∈ packets.getLast?, other.fromClient ≠ p.fromClient := by
        intro other isLast
        rw [ends] at isLast
        cases isLast
        exact same
      rw [bursts_turn turns]
      refine .turn ?_
      rw [split, length_append, length_singleton]
      rw [Bool.eq_not.mpr (Ne.symm same), last_dir, ← decide_not]
      exact decide_eq_decide.mpr (by omega)

lemma Alternating.fromClient_iff {all : List Burst} (alternating : Alternating all)
    (found : all[place]? = some burst) :
    FromClient burst ↔ place % 2 = 0 := by
  obtain ⟨nonempty, direction⟩ := alternating place burst found
  obtain ⟨p, within⟩ := exists_mem_of_ne_nil burst nonempty
  constructor
  · intro client
    exact of_decide_eq_true ((direction p within).symm.trans (client p within))
  · intro even q among
    exact (direction q among).trans (decide_eq_true even)

/-- The window that the step from the first bursts to the second completes. -/
def completes (all next : List Burst) : List (List Burst) :=
  if all.length < next.length ∧ 4 ≤ all.length ∧ all.length % 2 = 0 then
    [all.drop (all.length - 4)]
  else []

lemma windows_advances {all next : List Burst} (advances : Advances p all next)
    (alternating : Alternating all) : windows next = windows all ++ completes all next := by
  unfold completes
  cases advances with
  | same same => rw [if_neg (by simp), append_nil, windows_concat, windows_concat]
  | turn turn =>
    rw [windows_concat]
    congr 1
    by_cases long : 4 ≤ all.length
    · have inside : all.length - 4 < all.length := by omega
      have found := getElem?_eq_getElem inside
      have client := alternating.fromClient_iff found
      simp only [found, Option.mem_def, Option.some.injEq, forall_eq', client, long, true_and,
        length_append, length_singleton, Nat.lt_add_one]
      exact if_congr (by omega) rfl rfl
    · rw [if_neg (fun both => long both.1), if_neg (fun all => long all.2.1)]

end

section

variable {overhead : Nat} {p : Packet} {all next : List Burst}

/-- What the two sets hold after these bursts. -/
inductive Tracks (overhead : Nat) (all : List Burst) : HeuristicSet → HeuristicSet → Prop
  | early (few : all.length ≤ 2) :
      Tracks overhead all (holding overhead all) (holding overhead [])
  | late {first second : Nat} (apart : first = second + 2 ∨ second = first + 2)
      (even : first % 2 = 0) (opened : first < all.length ∧ second < all.length)
      (room : all.length ≤ first + 4 ∧ all.length ≤ second + 4) :
      Tracks overhead all (holding overhead (all.drop first)) (holding overhead (all.drop second))

variable (overhead) in
/-- A set that holds the bursts from an even place on follows the bursts, or is
evaluated with the four it holds and starts anew four places later. -/
lemma Advances.updateSet_eq (advances : Advances p all next) (checkSet : HeuristicSet → Bool)
    (mayOpen : Bool) (even : start % 2 = 0) (opened : start < all.length)
    (room : all.length ≤ start + 4)
    (rejects : start + 4 < next.length → checkSet (completed overhead (all.drop start)) = false) :
    updateSet checkSet mayOpen p.fromClient (sizeOf32 overhead p)
        (holding overhead (all.drop start)) =
      if next.length ≤ start + 4 then ⟨.goOn, holding overhead (next.drop start), []⟩
      else
        ⟨.goOn, holding overhead (next.drop (start + 4)), [completed overhead (all.drop start)]⟩ := by
  cases advances with
  | @same before burst same =>
    simp only [length_append, length_singleton] at opened room rejects ⊢
    rw [if_pos room, drop_append_of_le_length (by omega), drop_append_of_le_length (by omega)]
    refine updateSet_same checkSet mayOpen (by simp; omega) ?_
    rw [same, length_drop]
    exact decide_eq_decide.mpr (by omega)
  | turn turn =>
    simp only [length_append, length_singleton] at rejects ⊢
    by_cases full : all.length = start + 4
    · rw [if_neg (by omega), ← full, drop_left]
      refine updateSet_full checkSet mayOpen (by simp; omega) ?_ (rejects (by omega))
      rw [turn]
      exact decide_eq_true (by omega)
    · rw [if_pos (by omega), drop_append_of_le_length (by omega)]
      refine updateSet_turn checkSet mayOpen (by simp; omega) (by simp; omega) ?_
      rw [turn, length_drop]
      exact decide_eq_decide.mpr (by omega)

lemma Advances.length (advances : Advances p all next) :
    0 < all.length ∧ next.length = all.length ∨
      next.length = all.length + 1 ∧ next = all ++ [[p]] ∧
        p.fromClient = decide (all.length % 2 = 0) := by
  cases advances with
  | same same => exact .inl (by simp)
  | turn turn => exact .inr ⟨by simp, rfl, turn⟩

lemma Advances.completes_full (advances : Advances p all next)
    (even : start % 2 = 0) (room : all.length ≤ start + 4) (long : start + 4 < next.length) :
    completes all next = [all.drop start] := by
  have lengths := advances.length
  have full : all.length = start + 4 := by omega
  unfold completes
  rw [if_pos (by omega), full, Nat.add_sub_cancel]

section

variable {checkSet : HeuristicSet → Bool} {state : HeuristicState}

/-- The sets after a packet, and the windows that were evaluated. -/
def StepsTo (overhead : Nat) (checkSet : HeuristicSet → Bool) (state : HeuristicState) (p : Packet)
    (all next : List Burst) : Prop :=
  ∃ after : HeuristicState,
    updateSets checkSet p.fromClient (sizeOf32 overhead p) state =
      (.goOn, after, (completes all next).map (completed overhead)) ∧
    after.numPkts = state.numPkts ∧ Tracks overhead next after.set0 after.set1

lemma stepsTo (one : updateSet checkSet true p.fromClient (sizeOf32 overhead p) state.set0 =
      ⟨.goOn, first, opened⟩)
    (two : updateSet checkSet (first.stage == 3) p.fromClient (sizeOf32 overhead p) state.set1 =
      ⟨.goOn, second, closed⟩)
    (evaluated : opened ++ closed = (completes all next).map (completed overhead))
    (tracks : Tracks overhead next first second) :
    StepsTo overhead checkSet state p all next := by
  refine ⟨⟨state.numPkts, first, second⟩, ?_, rfl, tracks⟩
  unfold updateSets
  simp [one, two, evaluated]

/-- As long as there are at most two bursts only the first set is in use. -/
lemma early_step (set0 : state.set0 = holding overhead all)
    (set1 : state.set1 = holding overhead []) (few : all.length ≤ 2)
    (advances : Advances p all next) : StepsTo overhead checkSet state p all next := by
  have lengths := advances.length
  have none : completes all next = [] := if_neg (by omega)
  have one : updateSet checkSet true p.fromClient (sizeOf32 overhead p) state.set0 =
      ⟨.goOn, holding overhead next, []⟩ := by
    rw [set0]
    rcases Nat.eq_zero_or_pos all.length with empty | used
    · obtain ⟨_, rfl, client⟩ := lengths.resolve_left (by omega)
      rw [eq_nil_of_length_eq_zero empty]
      apply updateSet_open checkSet
      rw [client, empty]
      rfl
    · have kept := advances.updateSet_eq overhead checkSet true (Nat.zero_mod 2) used
        (by omega) (fun long => absurd long (by omega))
      rwa [if_pos (by omega)] at kept
  by_cases third : next.length = 3
  · obtain ⟨longer, rfl, client⟩ := lengths.resolve_left (by omega)
    have two : updateSet checkSet ((holding overhead (all ++ [[p]])).stage == 3) p.fromClient
        (sizeOf32 overhead p) state.set1 = ⟨.goOn, holding overhead [[p]], []⟩ := by
      have isThird : ((holding overhead (all ++ [[p]])).stage == 3) = true := beq_iff_eq.mpr third
      rw [set1, isThird]
      exact updateSet_open checkSet (client.trans (decide_eq_true (by omega)))
    refine stepsTo one two (by rw [none]; rfl) ?_
    have both : Tracks overhead (all ++ [[p]]) (holding overhead ((all ++ [[p]]).drop 0))
        (holding overhead ((all ++ [[p]]).drop 2)) :=
      .late (.inr rfl) rfl (by omega) (by omega)
    rwa [drop_zero, show 2 = all.length by omega, drop_left] at both
  · have two : updateSet checkSet ((holding overhead next).stage == 3) p.fromClient
        (sizeOf32 overhead p) state.set1 = ⟨.goOn, holding overhead [], []⟩ := by
      have notThird : ((holding overhead next).stage == 3) = false := beq_eq_false_iff_ne.mpr third
      rw [set1, notThird]
      rfl
    exact stepsTo one two (by rw [none]; rfl) (.early (by omega))

lemma late_step (set0 : state.set0 = holding overhead (all.drop first))
    (set1 : state.set1 = holding overhead (all.drop second))
    (apart : first = second + 2 ∨ second = first + 2) (even : first % 2 = 0)
    (opened : first < all.length ∧ second < all.length)
    (room : all.length ≤ first + 4 ∧ all.length ≤ second + 4) (advances : Advances p all next)
    (rejects : ∀ window ∈ completes all next, checkSet (completed overhead window) = false) :
    StepsTo overhead checkSet state p all next := by
  have lengths := advances.length
  have even' : second % 2 = 0 := by omega
  have rejected {start : Nat} (even : start % 2 = 0) (room : all.length ≤ start + 4)
      (long : start + 4 < next.length) : checkSet (completed overhead (all.drop start)) = false :=
    rejects _ (by rw [advances.completes_full even room long]; exact mem_singleton_self _)
  have one := advances.updateSet_eq overhead checkSet true even opened.1 room.1
    (rejected even room.1)
  have two (mayOpen : Bool) :=
    advances.updateSet_eq overhead checkSet mayOpen even' opened.2 room.2 (rejected even' room.2)
  rw [← set0] at one
  rw [← set1] at two
  by_cases firstFull : first + 4 < next.length
  · rw [if_neg (by omega)] at one
    have kept := two ((holding overhead (next.drop (first + 4))).stage == 3)
    rw [if_pos (by omega)] at kept
    refine stepsTo one kept ?_ (.late (by omega) (by omega) (by omega) (by omega))
    rw [advances.completes_full even room.1 firstFull]
    rfl
  · rw [if_pos (by omega)] at one
    have other := two ((holding overhead (next.drop first)).stage == 3)
    by_cases secondFull : second + 4 < next.length
    · rw [if_neg (by omega)] at other
      refine stepsTo one other ?_ (.late (by omega) (by omega) (by omega) (by omega))
      rw [advances.completes_full even' room.2 secondFull]
      rfl
    · rw [if_pos (by omega)] at other
      refine stepsTo one other ?_ (.late (by omega) (by omega) (by omega) (by omega))
      have none : completes all next = [] := if_neg (by omega)
      rw [none]
      rfl

lemma tracks_step (tracks : Tracks overhead all state.set0 state.set1)
    (advances : Advances p all next)
    (rejects : ∀ window ∈ completes all next, checkSet (completed overhead window) = false) :
    StepsTo overhead checkSet state p all next := by
  obtain ⟨numPkts, set0, set1⟩ := state
  cases tracks with
  | early few => exact early_step rfl rfl few advances
  | late apart even opened room => exact late_step rfl rfl apart even opened room advances rejects

end

end

section

variable {overhead : Nat} {window : List Burst}

lemma windows_length {all : List Burst} (within : window ∈ windows all) :
    window.length = 4 ∧ ∀ burst ∈ window, burst ∈ all := by
  induction all with
  | nil => cases within
  | cons burst rest ih =>
    have later (within : window ∈ windows rest) :
        window.length = 4 ∧ ∀ other ∈ window, other ∈ burst :: rest :=
      ⟨(ih within).1, fun other member => mem_cons_of_mem burst ((ih within).2 other member)⟩
    unfold windows at within
    split at within
    · next both =>
      rcases mem_cons.mp within with here | within
      · subst here
        exact ⟨by simp; omega, cons_subset_cons burst (take_subset 3 rest)⟩
      · exact later within
    · exact later within

lemma burstBytes_le (overhead : Nat) (burst : Burst) :
    burstBytes overhead burst ≤ 65535 * burst.length := by
  induction burst with
  | nil => exact le_refl 0
  | cons p rest ih =>
    have short := p.short
    simp only [burstBytes, map_cons, sum_cons, length_cons, Packet.payloadPacketLen] at ih ⊢
    omega

lemma completed_totals (few : packets.length ≤ 256) (within : window ∈ windows (bursts packets)) :
    setTotals (completed overhead window) = windowTotals overhead window := by
  obtain ⟨four, inside⟩ := windows_length within
  have small : ∀ burst ∈ window, burst.length ≤ 256 := by
    intro burst member
    have part := (sublist_flatten_of_mem (inside burst member)).length_le
    rw [bursts_flatten] at part
    omega
  simp only [setTotals, completed, holding, padded, length_map, four, Nat.sub_self,
    replicate_zero, append_nil, map_map, windowTotals, Prod.mk.injEq]
  constructor
  · refine map_congr_left fun burst member => ?_
    have bytes := burstBytes_le overhead burst
    have few := small burst member
    have fits : burstBytes overhead burst < 4294967296 := by omega
    exact UInt32.toNat_ofNat_of_lt fits
  · refine map_congr_left fun burst member => ?_
    have fits : burst.length < 4294967296 := Nat.lt_of_le_of_lt (small burst member) (by decide)
    exact UInt32.toNat_ofNat_of_lt fits

end

variable {checkSet : HeuristicSet → Bool} {cfg : Config} {packets : List Packet}

lemma windows_prefix (alternating : Alternating (bursts packets))
    (client : ∀ p, (packets ++ more).head? = some p → p.fromClient = true) :
    windows (bursts packets) <+: windows (bursts (packets ++ more)) := by
  induction more generalizing packets with
  | nil =>
    have same : packets ++ [] = packets := append_nil packets
    exact same.symm ▸ prefix_rfl
  | cons p more ih =>
    have advances := bursts_advances alternating (p := p) (by rintro rfl; exact client p rfl)
    have step := windows_advances advances alternating
    have rest := ih (advances.alternating alternating) (by simpa using client)
    rw [append_assoc, singleton_append, step] at rest
    exact (prefix_append _ _).trans rest

/-- Whether a packet of this direction is counted. -/
def countsFrom (flow : Flow) (fromClient : Bool) : Bool :=
  !flow.isTlsInTlsHeur ||
    if fromClient then flow.changeCipherFromClient else flow.changeCipherFromServer

/-- The flow after a packet that was not counted. -/
def afterIgnored (flow : Flow) (p : Packet) : Flow :=
  if p.fromClient then { flow with changeCipherFromClient := p.payload.head? == some 0x14 }
  else { flow with changeCipherFromServer := p.payload.head? == some 0x14 }

lemma afterIgnored_frame (flow : Flow) (p : Packet) :
    (afterIgnored flow p).isTlsInTlsHeur = flow.isTlsInTlsHeur ∧
      (afterIgnored flow p).byteOverhead = flow.byteOverhead ∧
      (afterIgnored flow p).obfuscatedHeurState = flow.obfuscatedHeurState := by
  unfold afterIgnored
  split <;> exact ⟨rfl, rfl, rfl⟩

variable {flow : Flow} {seen : List Packet} {p : Packet}

lemma countsFrom_gates (counts : countsFrom flow p.fromClient = true) :
    (flow.isTlsInTlsHeur && p.fromClient && !flow.changeCipherFromClient) = false ∧
      (flow.isTlsInTlsHeur && !p.fromClient && !flow.changeCipherFromServer) = false := by
  unfold countsFrom at counts
  cases direction : p.fromClient with
  | true =>
    rw [direction] at counts
    cases inTls : flow.isTlsInTlsHeur <;> simp_all
  | false =>
    rw [direction] at counts
    cases inTls : flow.isTlsInTlsHeur <;> simp_all

lemma countedIn_cons (flow : Flow) (p : Packet) :
    countedIn flow (p :: rest) =
      if p.payload = [] then countedIn flow rest
      else if countsFrom flow p.fromClient then p :: countedIn flow rest
      else countedIn (afterIgnored flow p) rest := by
  have frame := afterIgnored_frame flow p
  unfold countedIn
  rw [counted, frame.1]
  split
  · rfl
  · unfold countsFrom afterIgnored
    cases direction : p.fromClient <;> cases inTls : flow.isTlsInTlsHeur <;>
      cases client : flow.changeCipherFromClient <;> cases server : flow.changeCipherFromServer <;>
      cases change : p.payload.head? == some 0x14 <;> simp_all

/-- The state of the heuristic after the packets that were counted. -/
structure Ready (seen : List Packet) (flow : Flow) : Prop where
  alternating : Alternating (bursts seen)
  state : ∃ state, flow.obfuscatedHeurState = some state ∧
    state.numPkts = UInt8.ofNat seen.length ∧
    Tracks flow.byteOverhead (bursts seen) state.set0 state.set1

lemma search_empty (ready : Ready seen flow) (empty : p.payload = []) :
    tlsObfuscatedHeurSearch checkSet cfg flow p = ⟨.goOn, flow, []⟩ := by
  obtain ⟨state, set, _⟩ := ready.state
  unfold tlsObfuscatedHeurSearch
  simp [set, Packet.payloadPacketLen, empty]

lemma search_ignored (ready : Ready seen flow) (data : p.payload ≠ [])
    (size : flow.byteOverhead ≤ p.payloadPacketLen)
    (ignored : countsFrom flow p.fromClient = false) :
    tlsObfuscatedHeurSearch checkSet cfg flow p = ⟨.goOn, afterIgnored flow p, []⟩ := by
  obtain ⟨state, set, _⟩ := ready.state
  have nonempty : p.payloadPacketLen ≠ 0 := fun zero => data (eq_nil_of_length_eq_zero zero)
  unfold tlsObfuscatedHeurSearch
  unfold countsFrom at ignored
  cases client : p.fromClient <;> simp_all [afterIgnored]

lemma search_counted (ready : Ready seen flow) (data : p.payload ≠ [])
    (size : flow.byteOverhead ≤ p.payloadPacketLen) (counts : countsFrom flow p.fromClient = true)
    (budget : seen.length ≤ cfg.tlsHeuristicsMaxPackets) (client : seen = [] → p.fromClient = true)
    (rejects : ∀ window ∈ completes (bursts seen) (bursts (seen ++ [p])),
      checkSet (completed flow.byteOverhead window) = false) :
    ∃ after : HeuristicState, tlsObfuscatedHeurSearch checkSet cfg flow p =
        ⟨.goOn, { flow with obfuscatedHeurState := some after },
          (completes (bursts seen) (bursts (seen ++ [p]))).map (completed flow.byteOverhead)⟩ ∧
      Ready (seen ++ [p]) { flow with obfuscatedHeurState := some after } := by
  obtain ⟨state, set, number, tracks⟩ := ready.state
  have nonempty : p.payloadPacketLen ≠ 0 := fun zero => data (eq_nil_of_length_eq_zero zero)
  have advances := bursts_advances ready.alternating client
  have tracking : StepsTo flow.byteOverhead checkSet { state with numPkts := state.numPkts + 1 } p
      (bursts seen) (bursts (seen ++ [p])) := tracks_step tracks advances rejects
  obtain ⟨after, updated, kept, tracks'⟩ := tracking
  have granted : ¬state.numPkts.toNat > cfg.tlsHeuristicsMaxPackets := by
    have range := cfg.inRange
    have number' : (UInt8.ofNat seen.length).toNat = seen.length :=
      UInt8.toNat_ofNat_of_lt (show seen.length < 256 by omega)
    rw [number, number']
    omega
  refine ⟨after, ?_, advances.alternating ready.alternating, after, rfl, ?_, tracks'⟩
  · obtain ⟨fromClient, fromServer⟩ := countsFrom_gates counts
    unfold sizeOf32 at updated
    unfold tlsObfuscatedHeurSearch
    simp [set, if_neg nonempty, if_neg (Nat.not_lt.mpr size), fromClient, fromServer,
      if_neg granted, updated]
  · rw [kept, number]
    simp

lemma calls_cons {flow after : Flow}
    (outcome : tlsObfuscatedHeurSearch checkSet cfg flow p = ⟨.goOn, after, evaluated⟩) :
    calls checkSet cfg flow (p :: rest) =
      ⟨.goOn, after, evaluated⟩ :: calls checkSet cfg after rest := by
  rw [calls, outcome]
  rfl

variable (checkSet cfg) in
/-- From a state in which some packets have been counted, the calls go on through the
trace and evaluate the windows that it completes, in their order. -/
lemma calls_windows (trace : List Packet) (ready : Ready seen flow)
    (sizes : ∀ p ∈ trace, p.payload ≠ [] → flow.byteOverhead ≤ p.payloadPacketLen)
    (client : ∀ p, (seen ++ countedIn flow trace).head? = some p → p.fromClient = true)
    (budget : (seen ++ countedIn flow trace).length ≤ cfg.tlsHeuristicsMaxPackets + 1)
    (rejects : ∀ window ∈ windows (bursts (seen ++ countedIn flow trace)),
      checkSet (completed flow.byteOverhead window) = false) :
    (∀ call ∈ calls checkSet cfg flow trace, call.verdict = .goOn) ∧
      (windows (bursts (seen ++ countedIn flow trace))).map (completed flow.byteOverhead) =
        (windows (bursts seen)).map (completed flow.byteOverhead) ++
          (calls checkSet cfg flow trace).flatMap Outcome.evaluated := by
  induction trace generalizing flow seen with
  | nil => simp [calls, countedIn, counted]
  | cons p rest ih =>
    have sizes' := fun q later => sizes q (mem_cons_of_mem p later)
    rw [countedIn_cons] at client budget rejects ⊢
    by_cases empty : p.payload = []
    · simp only [if_pos empty] at client budget rejects ⊢
      rw [calls_cons (search_empty ready empty)]
      simpa using ih ready sizes' client budget rejects
    · have size := sizes p mem_cons_self empty
      cases counts : countsFrom flow p.fromClient with
      | false =>
        simp only [if_neg empty, counts, Bool.false_eq_true, if_false] at client budget rejects ⊢
        obtain ⟨-, overhead, state⟩ := afterIgnored_frame flow p
        have ready' : Ready seen (afterIgnored flow p) :=
          ⟨ready.alternating, by rw [state, overhead]; exact ready.state⟩
        rw [calls_cons (search_ignored ready empty size counts)]
        rw [← overhead] at rejects sizes' ⊢
        simpa using ih ready' sizes' client budget rejects
      | true =>
        simp only [if_neg empty, counts, if_true] at client budget rejects ⊢
        have first : seen = [] → p.fromClient = true := by
          intro none
          exact client p (by rw [none]; rfl)
        have granted : seen.length ≤ cfg.tlsHeuristicsMaxPackets := by
          simp only [length_append, length_cons] at budget
          omega
        have split : seen ++ p :: countedIn flow rest = seen ++ [p] ++ countedIn flow rest :=
          append_cons seen p _
        rw [split] at client budget rejects ⊢
        have advances := bursts_advances ready.alternating first
        have grown := windows_advances advances ready.alternating
        have within := windows_prefix
          (advances.alternating ready.alternating) client
        obtain ⟨after, outcome, ready'⟩ := search_counted ready empty size counts granted first
          (fun window member => rejects window
            (within.subset (by rw [grown]; exact mem_append_right _ member)))
        obtain ⟨goesOn, evaluated⟩ := ih ready' sizes' client budget rejects
        rw [calls_cons outcome]
        refine ⟨forall_mem_cons.mpr ⟨rfl, goesOn⟩, ?_⟩
        rw [flatMap_cons, ← append_assoc, ← map_append, ← grown]
        exact evaluated

lemma counted_prefix (client server : Bool) (trace more : List Packet) :
    counted client server trace <+: counted client server (trace ++ more) := by
  induction trace generalizing client server with
  | nil => exact nil_prefix
  | cons p trace ih =>
    rw [cons_append, counted, counted]
    by_cases empty : p.payload = []
    · rw [if_pos empty, if_pos empty]
      exact ih client server
    · rw [if_neg empty, if_neg empty]
      by_cases opened : (if p.fromClient then client else server) = true
      · rw [if_pos opened, if_pos opened]
        exact cons_prefix_cons.mpr ⟨rfl, ih client server⟩
      · rw [if_neg opened, if_neg opened]
        split
        · exact ih _ _
        · exact ih client server

lemma bursts_alternating (client : ∀ p, packets.head? = some p → p.fromClient = true) :
    Alternating (bursts packets) := by
  induction packets using List.reverseRecOn with
  | nil =>
    intro place burst found
    cases found
  | append_singleton packets p ih =>
    have before : Alternating (bursts packets) := by
      refine ih fun q first => client q ?_
      rw [head?_append, first]
      rfl
    exact (bursts_advances before fun none => client p (by rw [none]; rfl)).alternating before

lemma ready_fresh (fresh : flow.obfuscatedHeurState = some freshState) : Ready [] flow :=
  ⟨fun _ _ found => (by cases found), freshState, fresh, rfl, .early (Nat.zero_le 2)⟩

/-- In a flow of which the client sends the first counted packet, as long as the budget
lasts and `check_set` accepts no window: after every number of packets, `check_set` has
been called once for each window after which another burst has started, in the order
of the windows, and with their totals. -/
theorem check_set_called_once_per_window (checkSet : HeuristicSet → Bool) (cfg : Config)
    (flow : Flow) (trace : List Packet) (fresh : flow.obfuscatedHeurState = some freshState)
    (sizes : ∀ p ∈ trace, p.payload ≠ [] → flow.byteOverhead ≤ p.payloadPacketLen)
    (client : ∀ p, (countedIn flow trace).head? = some p → p.fromClient = true)
    (budget : (countedIn flow trace).length ≤ cfg.tlsHeuristicsMaxPackets + 1)
    (rejects : ∀ window ∈ windows (bursts (countedIn flow trace)),
      ∀ set, setTotals set = windowTotals flow.byteOverhead window → checkSet set = false) :
    ∀ count, (∀ call ∈ calls checkSet cfg flow (trace.take count), call.verdict = .goOn) ∧
      ((calls checkSet cfg flow (trace.take count)).flatMap Outcome.evaluated).map setTotals =
        (windows (bursts (countedIn flow (trace.take count)))).map
          (windowTotals flow.byteOverhead) := by
  intro count
  have within : countedIn flow (trace.take count) <+: countedIn flow trace := by
    have shorter := counted_prefix (!flow.isTlsInTlsHeur || flow.changeCipherFromClient)
      (!flow.isTlsInTlsHeur || flow.changeCipherFromServer) (trace.take count) (trace.drop count)
    rwa [take_append_drop] at shorter
  obtain ⟨later, whole⟩ := within
  rw [← whole] at client budget rejects
  have client' : ∀ p, (countedIn flow (trace.take count)).head? = some p → p.fromClient = true := by
    intro p first
    apply client p
    rw [head?_append, first]
    rfl
  have budget' : (countedIn flow (trace.take count)).length ≤ cfg.tlsHeuristicsMaxPackets + 1 := by
    rw [length_append] at budget
    omega
  have few : (countedIn flow (trace.take count)).length ≤ 256 :=
    le_trans budget' (Nat.succ_le_succ cfg.inRange)
  have windows_within := windows_prefix (bursts_alternating client') client
  have evaluated := calls_windows checkSet cfg (trace.take count) (ready_fresh fresh)
    (fun p member => sizes p (mem_of_mem_take member)) client' budget'
    (fun window member => rejects window (windows_within.subset member) _
      (completed_totals few member))
  refine ⟨evaluated.1, ?_⟩
  have sets := evaluated.2
  simp only [nil_append] at sets
  rw [show windows (bursts []) = [] from rfl, map_nil, nil_append] at sets
  rw [← sets, map_map]
  exact map_congr_left fun window member => completed_totals few member

def plainFlow : Flow := ⟨false, (0, 0), false, false, some freshState⟩

/-- Bursts of two, one, one, one and one packets. -/
def shortTrace : List Packet :=
  [⟨true, [1, 2, 3], by decide⟩, ⟨true, [4], by decide⟩, ⟨false, [5, 6], by decide⟩,
    ⟨true, [7], by decide⟩, ⟨false, [8, 9, 10], by decide⟩, ⟨true, [11], by decide⟩]

theorem short_trace_evaluated :
    ((calls (fun _ => false) ⟨25, by decide⟩ plainFlow (shortTrace.take 6)).flatMap
      Outcome.evaluated).map setTotals = [([4, 2, 1, 3], [2, 1, 1, 1])] :=
  (check_set_called_once_per_window (fun _ => false) ⟨25, by decide⟩ plainFlow shortTrace rfl
    (by decide) (fun p first => by cases first; rfl) (by decide) (fun _ _ _ _ => rfl) 6).2.trans
    (by decide)

end Ndpi.Guarantees.ObfuscatedHeuristic
