import Ndpi.Lib.Run
import Ndpi.Source.FlowRisk

/-!
# Stored risk messages

The messages of a flow belong to risks that are set, one entry each, as long as
no exception masks a risk that has a message or is about to get one.
-/
namespace Ndpi.Guarantees.FlowRisk
open Lib Source.FlowRisk List Option

lemma bit_getLsbD (r : RiskId) : (bit r).getLsbD i = decide (r.val = i) := by
  rw [bit, ← BitVec.twoPow_eq, BitVec.getLsbD_twoPow]
  simp [r.isLt]

lemma bit_getLsbD_of_ne (differ : other ≠ r) : (bit r).getLsbD other.val = false := by
  rw [bit_getLsbD]
  exact decide_eq_false fun same => differ (Fin.ext same.symm)

lemma issetRisk_eq (flow : Flow) (r : RiskId) : issetRisk flow r = flow.risk.getLsbD r.val := by
  have nonzero : BitVec.twoPow 64 r.val ≠ 0 := by
    intro zero
    have selected := congrArg (fun bits => bits.getLsbD r.val) zero
    simp [r.isLt] at selected
  rw [issetRisk, bit, ← BitVec.twoPow_eq, BitVec.and_twoPow]
  cases flow.risk.getLsbD r.val with
  | true => simp
  | false => simpa using Ne.symm nonzero

/-- The entries: one per risk, only for risks that are set, within the array. -/
structure Kept (flow : Flow) : Prop where
  distinct : (flow.riskInfos.map RiskInformation.id).Nodup
  present : ∀ entry ∈ flow.riskInfos, issetRisk flow entry.id = true
  room : flow.riskInfos.length ≤ maxNumRiskInfos

/-- Only risks with messages enabled get an entry. -/
def Allowed (cfg : RiskConfig) (flow : Flow) : Prop :=
  ∀ entry ∈ flow.riskInfos, cfg.flowriskInfoEnabled entry.id = true

/-- The mask after the exception of the host, if it is looked up in this call. -/
def maskAfterHost (flow : Flow) (lookups : ExceptionLookups) : BitVec 64 :=
  let start :=
    if flow.hostRiskMaskEvaluated = false ∧ flow.ipRiskMaskEvaluated = false then
      BitVec.allOnes 64
    else flow.riskMask
  if flow.hostRiskMaskEvaluated = false ∧ lookups.hasHost = true then
    start &&& lookups.hostMask.getD (BitVec.allOnes 64)
  else start

/-- The mask after the exceptions of the peers as well. -/
def maskAfterPeers (flow : Flow) (lookups : ExceptionLookups) : BitVec 64 :=
  if flow.ipRiskMaskEvaluated = false then
    maskAfterHost flow lookups &&& lookups.clientMask &&& lookups.serverMask
  else maskAfterHost flow lookups

/-- A call that leaves no message without its risk. It stores none for a risk
that an exception keeps from being set; and its exceptions mask no risk with a
message, unless that of the host masks everything. -/
def Harmless (cfg : RiskConfig) (flow : Flow) : RiskCall → Prop
  | .setRisk granted r riskMessage =>
    ¬(cfg.flowriskEnabled r = true ∧ issetRisk flow r = false ∧
      flow.hostRiskMaskEvaluated = true ∧ flow.riskMask.getLsbD r.val = false ∧ flow.risk ≠ 0 ∧
      cfg.flowriskInfoEnabled r = true ∧ riskMessage ≠ none ∧
      flow.riskInfos.length < maxNumRiskInfos ∧ granted = true)
  | .unsetRisk _ => True
  | .handleRiskExceptions lookups =>
    flow.risk = 0 ∨
    (flow.hostRiskMaskEvaluated = false ∧ lookups.hasHost = true ∧
      maskAfterHost flow lookups = 0) ∨
    ∀ entry ∈ flow.riskInfos, (maskAfterPeers flow lookups).getLsbD entry.id.val = true

variable {flow : Flow} {r : RiskId}

lemma Kept.grow (kept : Kept flow) (v : BitVec 64) :
    Kept { flow with risk := flow.risk ||| v } := by
  refine ⟨kept.distinct, ?_, kept.room⟩
  intro entry member
  have before := kept.present entry member
  rw [issetRisk_eq] at before ⊢
  rw [BitVec.getLsbD_or, before, Bool.true_or]

/-- A message is stored for a risk that has none: right exactly if the risk is
set or the message does not get stored. -/
lemma Kept.storeInfo_iff (kept : Kept flow) (granted : Bool) (r : RiskId) (message : Bytes)
    (absent : ∀ entry ∈ flow.riskInfos, entry.id ≠ r) :
    Kept (storeInfo flow granted r message) ↔ issetRisk flow r = true ∨
      ¬(flow.riskInfos.length < maxNumRiskInfos ∧ granted = true) := by
  unfold storeInfo
  split
  · next stored =>
    rw [or_iff_left (not_not_intro stored)]
    constructor
    · intro after
      exact after.present ⟨r, some message⟩ (by simp)
    · intro set
      refine ⟨?_, ?_, ?_⟩
      · rw [map_append, nodup_append]
        refine ⟨kept.distinct, by simp, ?_⟩
        intro id listed new isNew
        obtain ⟨entry, member, rfl⟩ := mem_map.mp listed
        rw [mem_singleton.mp isNew]
        exact absent entry member
      · intro entry member
        rcases mem_append.mp member with old | new
        · exact kept.present entry old
        · rw [mem_singleton.mp new]
          exact set
      · simp only [length_append, length_singleton]
        exact stored.1
  · next refused => exact iff_of_true kept (.inr refused)

lemma extendFirst_ids {after : List RiskInformation}
    (found : extendFirst granted r message entries = some after) :
    after.map RiskInformation.id = entries.map RiskInformation.id := by
  induction entries generalizing after with
  | nil => cases found
  | cons entry rest ih =>
    simp only [extendFirst] at found
    split at found
    · cases found
      have sameId : (entry.extend granted message).id = entry.id := by
        unfold RiskInformation.extend
        split
        · rfl
        · split <;> rfl
      simp [sameId]
    · obtain ⟨tail, foundTail, rfl⟩ := map_eq_some_iff.mp found
      simp [ih foundTail]

variable {entries : List RiskInformation}

lemma extendFirst_none (missing : extendFirst granted r message entries = none) :
    ∀ entry ∈ entries, entry.id ≠ r := by
  induction entries with
  | nil => simp
  | cons entry rest ih =>
    simp only [extendFirst] at missing
    split at missing
    · cases missing
    · next other =>
      exact forall_mem_cons.mpr ⟨other, ih (map_eq_none_iff.mp missing)⟩

/-- What the entries are does not matter beyond their risks. -/
lemma Kept.sameIds (kept : Kept flow)
    (ids : riskInfos.map RiskInformation.id = flow.riskInfos.map RiskInformation.id) :
    Kept { flow with riskInfos := riskInfos } := by
  refine ⟨?_, ?_, ?_⟩
  · rw [ids]
    exact kept.distinct
  · intro entry member
    have listed : entry.id ∈ flow.riskInfos.map RiskInformation.id := ids ▸ mem_map_of_mem member
    obtain ⟨old, oldMember, sameId⟩ := mem_map.mp listed
    rw [← sameId]
    exact kept.present old oldMember
  · have length := congrArg List.length ids
    rw [length_map, length_map] at length
    exact length.le.trans kept.room

/-- A risk that is not set has no message. -/
lemma Kept.absent (kept : Kept flow) (unset : issetRisk flow r = false) :
    ∀ entry ∈ flow.riskInfos, entry.id ≠ r := by
  rintro entry member rfl
  rw [kept.present entry member] at unset
  cases unset

lemma addedRisk_getLsbD (flow : Flow) (r : RiskId) :
    (addedRisk flow r).getLsbD r.val =
      (!flow.hostRiskMaskEvaluated || flow.riskMask.getLsbD r.val) := by
  have own : (bit r).getLsbD r.val = true := by rw [bit_getLsbD]; simp
  unfold addedRisk
  cases flow.hostRiskMaskEvaluated with
  | true => simp [own]
  | false => simp [own]

/-- A masked risk adds nothing. -/
lemma addedRisk_masked {flow : Flow} {r : RiskId} (evaluated : flow.hostRiskMaskEvaluated = true)
    (masked : flow.riskMask.getLsbD r.val = false) : addedRisk flow r = 0#64 := by
  apply BitVec.eq_of_getLsbD_eq
  intro i inside
  rw [addedRisk, if_pos evaluated, BitVec.getLsbD_and, bit_getLsbD]
  by_cases same : r.val = i
  · rw [← same, masked, Bool.and_false, BitVec.getLsbD_zero]
  · simp [same]

variable {cfg : RiskConfig}

lemma Kept.setNewRisk_iff (kept : Kept flow) (granted : Bool) (riskMessage : Option Bytes)
    (enabled : cfg.flowriskEnabled r = true) (unset : issetRisk flow r = false) :
    Kept (setNewRisk cfg granted flow r riskMessage) ↔
      Harmless cfg flow (.setRisk granted r riskMessage) := by
  have grown := kept.grow (addedRisk flow r)
  have set : issetRisk { flow with risk := flow.risk ||| addedRisk flow r } r =
      (!flow.hostRiskMaskEvaluated || flow.riskMask.getLsbD r.val) := by
    rw [issetRisk_eq] at unset ⊢
    rw [BitVec.getLsbD_or, unset, Bool.false_or, addedRisk_getLsbD]
  cases riskMessage with
  | none => exact iff_of_true grown (by simp [Harmless])
  | some message =>
    simp only [setNewRisk, Harmless, enabled, unset, true_and]
    split
    · next noticed =>
      rw [grown.storeInfo_iff granted r message (kept.absent unset), set]
      by_cases masked : flow.hostRiskMaskEvaluated = true ∧ flow.riskMask.getLsbD r.val = false
      · obtain ⟨evaluated, masked⟩ := masked
        have nonzero := noticed.1
        rw [addedRisk_masked evaluated masked, BitVec.or_zero] at nonzero
        have unset' : ¬(!flow.hostRiskMaskEvaluated || flow.riskMask.getLsbD r.val) = true := by
          rw [evaluated, masked]
          decide
        rw [or_iff_right unset']
        constructor
        · rintro refused ⟨-, -, -, -, -, stored⟩
          exact refused stored
        · intro harmless stored
          exact harmless ⟨evaluated, masked, nonzero, noticed.2, some_ne_none _, stored⟩
      · have passes : (!flow.hostRiskMaskEvaluated || flow.riskMask.getLsbD r.val) = true := by
          cases evaluated : flow.hostRiskMaskEvaluated <;> simp_all
        apply iff_of_true (.inl passes)
        rintro ⟨evaluated, cut, -⟩
        exact masked ⟨evaluated, cut⟩
    · next ignored =>
      apply iff_of_true grown
      rintro ⟨evaluated, masked, nonzero, infoEnabled, -⟩
      rw [addedRisk_masked evaluated masked, BitVec.or_zero] at ignored
      exact ignored ⟨nonzero, infoEnabled⟩

lemma Kept.setKnownRisk (kept : Kept flow) (cfg : RiskConfig) (granted : Bool)
    (riskMessage : Option Bytes) (set : issetRisk flow r = true) :
    Kept (setKnownRisk cfg granted flow r riskMessage) := by
  unfold Source.FlowRisk.setKnownRisk
  split
  · next message =>
    split
    · split
      · next found => exact kept.sameIds (extendFirst_ids found)
      · next missing =>
        exact (kept.storeInfo_iff granted r message (extendFirst_none missing)).mpr (.inl set)
    · exact kept
  · exact kept

lemma Kept.setRisk_iff (kept : Kept flow) (cfg : RiskConfig) (granted : Bool) (r : RiskId)
    (riskMessage : Option Bytes) :
    Kept (setRisk cfg granted flow r riskMessage) ↔
      Harmless cfg flow (.setRisk granted r riskMessage) := by
  unfold setRisk
  split
  · next disabled => exact iff_of_true kept (by simp [Harmless, disabled])
  · next enabled =>
    split
    · next unset =>
      exact kept.setNewRisk_iff granted riskMessage (by simpa using enabled) unset
    · next set =>
      have known : issetRisk flow r = true := by simpa using set
      exact iff_of_true (kept.setKnownRisk cfg granted riskMessage known) (by simp [Harmless, known])

lemma removeInfos_sublist (r : RiskId) (entries : List RiskInformation) :
    (removeInfos r entries).Sublist entries := by
  fun_induction removeInfos r entries with
  | case1 => exact .slnil
  | case2 entry same => exact .cons _ .slnil
  | case3 entry same next more ih => exact .cons _ (.cons_cons _ ih)
  | case4 entry rest other ih => exact .cons_cons _ ih

lemma removeInfos_absent (r : RiskId) (distinct : (entries.map RiskInformation.id).Nodup) :
    ∀ entry ∈ removeInfos r entries, entry.id ≠ r := by
  fun_induction removeInfos r entries with
  | case1 => simp
  | case2 entry same => simp
  | case3 entry same next more ih =>
    simp only [map_cons, nodup_cons, mem_cons, not_or] at distinct
    obtain ⟨⟨first, -⟩, -, rest⟩ := distinct
    exact forall_mem_cons.mpr ⟨fun again => first (same.trans again.symm), ih rest⟩
  | case4 entry rest other ih => exact forall_mem_cons.mpr ⟨other, ih (nodup_cons.mp distinct).2⟩

lemma issetRisk_cleared {r : RiskId} (differ : other ≠ r) :
    issetRisk { flow with risk := flow.risk &&& ~~~bit r } other = issetRisk flow other := by
  rw [issetRisk_eq, issetRisk_eq, BitVec.getLsbD_and, BitVec.getLsbD_not, bit_getLsbD_of_ne differ]
  simp

lemma Kept.unsetRisk (kept : Kept flow) (cfg : RiskConfig) (allowed : Allowed cfg flow)
    (r : RiskId) : Kept (unsetRisk cfg flow r) := by
  unfold Source.FlowRisk.unsetRisk
  split
  · split
    · have fewer := removeInfos_sublist r flow.riskInfos
      have absent := removeInfos_absent r kept.distinct
      refine ⟨kept.distinct.sublist (fewer.map _), ?_, fewer.length_le.trans kept.room⟩
      intro entry member
      exact (issetRisk_cleared (absent entry member)).trans
        (kept.present entry (fewer.subset member))
    · next silent =>
      refine ⟨kept.distinct, ?_, kept.room⟩
      intro entry member
      have differ : entry.id ≠ r := by
        rintro rfl
        exact silent (allowed entry member)
      exact (issetRisk_cleared differ).trans (kept.present entry member)
  · exact kept

/-- What `ndpi_handle_risk_exceptions` does to the risks and their messages. -/
lemma handleRiskExceptions_eq {flow : Flow} (lookups : ExceptionLookups) (some : flow.risk ≠ 0) :
    (handleRiskExceptions flow lookups).risk = flow.risk &&& maskAfterPeers flow lookups ∧
      (handleRiskExceptions flow lookups).riskInfos =
        if flow.hostRiskMaskEvaluated = false ∧ lookups.hasHost = true ∧
          maskAfterHost flow lookups = 0 then [] else flow.riskInfos := by
  obtain ⟨risk, mask, host, ip, infos⟩ := flow
  obtain ⟨hasHost, hostMask, client, server⟩ := lookups
  simp only [handleRiskExceptions, if_neg some, handleHostException, handleIpException,
    maskAfterPeers, maskAfterHost]
  cases host <;> cases ip <;> cases hasHost <;> cases hostMask <;>
    simp only [and_self, and_true, true_and, and_false, false_and, if_true, if_false,
      Bool.false_eq_true, Bool.true_eq_false, getD_none, getD_some,
      BitVec.and_allOnes]

lemma Kept.handleRiskExceptions_iff (kept : Kept flow) (cfg : RiskConfig)
    (lookups : ExceptionLookups) :
    Kept (handleRiskExceptions flow lookups) ↔
      Harmless cfg flow (.handleRiskExceptions lookups) := by
  by_cases none : flow.risk = 0
  · refine iff_of_true ?_ (.inl none)
    rw [handleRiskExceptions, if_pos none]
    exact kept
  · obtain ⟨risk, infos⟩ := handleRiskExceptions_eq lookups none
    generalize handleRiskExceptions flow lookups = after at risk infos ⊢
    rw [Harmless, or_iff_right none]
    by_cases cleared : flow.hostRiskMaskEvaluated = false ∧ lookups.hasHost = true ∧
        maskAfterHost flow lookups = 0
    · rw [if_pos cleared] at infos
      refine iff_of_true ⟨?_, ?_, ?_⟩ (.inl cleared) <;> simp [infos]
    · rw [if_neg cleared] at infos
      rw [or_iff_right cleared]
      have isset (entry : RiskInformation) (member : entry ∈ flow.riskInfos) :
          issetRisk after entry.id = (maskAfterPeers flow lookups).getLsbD entry.id.val := by
        have before := kept.present entry member
        rw [issetRisk_eq] at before ⊢
        rw [risk, BitVec.getLsbD_and, before, Bool.true_and]
      constructor
      · intro stillKept entry member
        rw [← isset entry member]
        exact stillKept.present entry (infos ▸ member)
      · intro spared
        refine ⟨infos ▸ kept.distinct, ?_, infos ▸ kept.room⟩
        intro entry member
        rw [infos] at member
        rw [isset entry member]
        exact spared entry member

lemma riskStep_kept_iff (cfg : RiskConfig) (flow : Flow) (call : RiskCall)
    (allowed : Allowed cfg flow) (kept : Kept flow) :
    Kept (riskStep cfg flow call) ↔ Harmless cfg flow call := by
  cases call with
  | setRisk granted r riskMessage => exact kept.setRisk_iff cfg granted r riskMessage
  | unsetRisk r => exact iff_of_true (kept.unsetRisk cfg allowed r) trivial
  | handleRiskExceptions lookups => exact kept.handleRiskExceptions_iff cfg lookups

section
variable (allowed : Allowed cfg flow)
include allowed

lemma Allowed.storeInfo (granted : Bool) (message : Bytes)
    (infoEnabled : cfg.flowriskInfoEnabled r = true) :
    Allowed cfg (storeInfo flow granted r message) := by
  unfold Source.FlowRisk.storeInfo
  split
  · intro entry member
    rcases mem_append.mp member with old | new
    · exact allowed entry old
    · rw [mem_singleton.mp new]
      exact infoEnabled
  · exact allowed

lemma Allowed.setNewRisk (granted : Bool) (r : RiskId) (riskMessage : Option Bytes) :
    Allowed cfg (setNewRisk cfg granted flow r riskMessage) := by
  have grown : Allowed cfg { flow with risk := flow.risk ||| addedRisk flow r } := allowed
  cases riskMessage with
  | none => exact grown
  | some message =>
    simp only [Source.FlowRisk.setNewRisk]
    split
    · next noticed => exact grown.storeInfo granted message noticed.2
    · exact grown

lemma Allowed.setKnownRisk (granted : Bool) (r : RiskId) (riskMessage : Option Bytes) :
    Allowed cfg (setKnownRisk cfg granted flow r riskMessage) := by
  unfold Source.FlowRisk.setKnownRisk
  split
  · next message =>
    split
    · next infoEnabled =>
      split
      · next found =>
        intro entry member
        have listed : entry.id ∈ flow.riskInfos.map RiskInformation.id :=
          extendFirst_ids found ▸ mem_map_of_mem member
        obtain ⟨old, oldMember, sameId⟩ := mem_map.mp listed
        rw [← sameId]
        exact allowed old oldMember
      · exact allowed.storeInfo granted message infoEnabled
    · exact allowed
  · exact allowed

end

lemma riskStep_allowed (cfg : RiskConfig) (flow : Flow) (call : RiskCall)
    (allowed : Allowed cfg flow) : Allowed cfg (riskStep cfg flow call) := by
  cases call with
  | setRisk granted r riskMessage =>
    simp only [riskStep, setRisk]
    split
    · exact allowed
    · split
      · exact allowed.setNewRisk granted r riskMessage
      · exact allowed.setKnownRisk granted r riskMessage
  | unsetRisk r =>
    simp only [riskStep, unsetRisk]
    split
    · split
      · intro entry member
        exact allowed entry ((removeInfos_sublist r flow.riskInfos).subset member)
      · exact allowed
    · exact allowed
  | handleRiskExceptions lookups =>
    by_cases none : flow.risk = 0
    · simp only [riskStep, handleRiskExceptions, if_pos none]
      exact allowed
    · have infos := (handleRiskExceptions_eq lookups none).2
      intro entry member
      simp only [riskStep, infos] at member
      split at member
      · cases member
      · exact allowed entry member

/-- Throughout a sequence of calls the entries are one per risk, of risks that
are set, and within the array, exactly if every call is harmless. -/
theorem risk_infos_kept_iff (cfg : RiskConfig) (calls : List RiskCall) :
    Throughout (riskStep cfg) Kept newFlow calls ↔
      EveryStep (riskStep cfg) (Harmless cfg) newFlow calls := by
  have start : Allowed cfg newFlow ∧ Kept newFlow := by
    refine ⟨?_, ?_, ?_, ?_⟩ <;> simp [Allowed, newFlow]
  exact throughout_iff_everyStep start (riskStep_allowed cfg) (riskStep_kept_iff cfg)

/-- A host exception for risk 2 comes after risk 1 was set: setting risk 2 twice
stores two messages for a risk that is not set. -/
theorem risk_infos_without_risk :
    let cfg : RiskConfig := ⟨fun _ => true, fun _ => true⟩
    let lookups : ExceptionLookups := ⟨true, some (~~~bit 2), BitVec.allOnes 64, BitVec.allOnes 64⟩
    let flow := run (riskStep cfg) newFlow [.setRisk true 1 (some [97]),
      .handleRiskExceptions lookups, .setRisk true 2 (some [98]), .setRisk true 2 (some [98])]
    flow.riskInfos.map RiskInformation.id = [1, 2, 2] ∧ issetRisk flow 2 = false := by
  decide

/-- Once the exception of the host has been looked up, only risks within the mask are set. -/
def Masked (flow : Flow) : Prop :=
  flow.hostRiskMaskEvaluated = true →
    ∀ r : RiskId, issetRisk flow r = true → flow.riskMask.getLsbD r.val = true

lemma riskStep_masked (call : RiskCall) (masked : Masked flow) :
    Masked (riskStep cfg flow call) := by
  simp only [Masked, issetRisk_eq] at masked ⊢
  cases call with
  | setRisk granted r riskMessage =>
    cases riskMessage <;> grind [riskStep, setRisk, setNewRisk, setKnownRisk, storeInfo, addedRisk]
  | unsetRisk r => grind [riskStep, unsetRisk]
  | handleRiskExceptions lookups =>
    grind [riskStep, handleRiskExceptions, handleHostException, handleIpException]

/-- No call sets a risk that the exception of the host masks, or leaves one set. -/
theorem risks_within_mask (cfg : RiskConfig) (calls : List RiskCall) :
    Masked (run (riskStep cfg) newFlow calls) := by
  induction calls using List.reverseRecOn with
  | nil => exact nofun
  | append_singleton calls call ih =>
    rw [run_concat]
    exact riskStep_masked call ih

end Ndpi.Guarantees.FlowRisk
