import Ndpi.Source.Configuration.Access

/-!
# Reading back what was configured

A parameter that was set is read back, and no other one has changed, under conditions
that leave out some of what can be set: the getter does not know the parameters of
single flow risks, nor the text that stands for no protocol.
-/
namespace Ndpi.Guarantees.Configuration
open Lib Source.CustomRules Source.Configuration List Option
open Lib.CString (chars)

/-- `$PROTO_NAME_OR_ID`. -/
def anyProtocol : Text := chars "$PROTO_NAME_OR_ID"

/-- `flow_risk.$FLOWRISK_NAME_OR_ID`. -/
def anyRisk : Text := chars "flow_risk.$FLOWRISK_NAME_OR_ID"

/-- The setter takes the name for that of a flow risk. -/
def IsRiskName (param : Text) : Prop :=
  chars "flow_risk." <+: param ∧ (¬chars ".load" <:+ param ∨ chars ".info" <:+ param)

instance (param : Text) : Decidable (IsRiskName param) :=
  inferInstanceAs (Decidable (chars "flow_risk." <+: param ∧
    (¬chars ".load" <:+ param ∨ chars ".info" <:+ param)))

def isRiskKind : ParamKind → Bool
  | .flowriskEnableDisable _ => true
  | _ => false

lemma isRiskKind_eq (risk : isRiskKind kind = true) :
    ∃ field, kind = .flowriskEnableDisable field := by
  cases kind with
  | flowriskEnableDisable field => exact ⟨field, rfl⟩
  | enableDisable field => cases risk
  | int field limits => cases risk
  | protocolEnableDisable field => cases risk
  | filenameConfig => cases risk

def isProtocolKind : ParamKind → Bool
  | .protocolEnableDisable _ => true
  | _ => false

/-- The parameters that an entry for any protocol has. -/
def protocolParams : List Text := ["log", "ip_list.load", "monitoring", "enable"].map chars

/-- How the type of an entry goes with its protocol and parameter. -/
structure Regular (c : CfgParam) : Prop where
  risk : isRiskKind c.kind = true ↔ c.proto = none ∧ IsRiskName c.param
  risk_of_anyRisk : anyRisk <+: c.param → isRiskKind c.kind = true
  not_null : c.proto ≠ some (chars "NULL")
  protocol : isProtocolKind c.kind = true ↔ c.proto = some anyProtocol
  protocol_param : c.proto = some anyProtocol → c.param ∈ protocolParams
  plain_param : c.proto = none → c.param ∉ protocolParams

lemma cfgParams_regular : ∀ c ∈ cfgParams, Regular c := by
  have facts : ∀ c ∈ cfgParams,
      (isRiskKind c.kind = true ↔ c.proto = none ∧ IsRiskName c.param) ∧
      (anyRisk <+: c.param → isRiskKind c.kind = true) ∧
      c.proto ≠ some (chars "NULL") ∧
      (isProtocolKind c.kind = true ↔ c.proto = some anyProtocol) ∧
      (c.proto = some anyProtocol → c.param ∈ protocolParams) ∧
      (c.proto = none → c.param ∉ protocolParams) := by
    decide +kernel
  intro c mem
  obtain ⟨risk, risk_of_anyRisk, not_null, protocol, protocol_param, plain_param⟩ := facts c mem
  exact ⟨risk, risk_of_anyRisk, not_null, protocol, protocol_param, plain_param⟩

/-- No protocol has a parameter of a flow risk. -/
lemma protocolParams_plain : ∀ param ∈ protocolParams, ¬IsRiskName param := by
  decide +kernel

/-- The limits of a number are those of an `int`. -/
def limitsFit : ParamKind → Bool
  | .int _ limits =>
    match limits with
    | some (minValue, maxValue) =>
      -2147483648 ≤ (strtonumAuto minValue).getD 0 && (strtonumAuto maxValue).getD 0 ≤ 2147483647
    | none => false
  | _ => true

lemma cfgParams_limits : ∀ c ∈ cfgParams, limitsFit c.kind = true := by
  decide +kernel

section

variable {proto : Option Text} {param : Text} {c : CfgParam}

lemma getMatches_none : getMatches none param c = true ↔ c.proto = none ∧ param = c.param := by
  unfold getMatches namedBy
  simp only [Bool.or_eq_true, Bool.and_eq_true, decide_eq_true_eq, isSome_none,
    Bool.false_eq_true, false_and, or_false, true_and, @eq_comm _ none c.proto]
  tauto

lemma getMatches_some : getMatches (some p) param c = true ↔
    (c.proto = some p ∨ c.proto = some anyProtocol) ∧ param = c.param := by
  unfold anyProtocol getMatches namedBy
  simp only [Bool.or_eq_true, Bool.and_eq_true, decide_eq_true_eq, isSome_some, true_and,
    reduceCtorEq, false_and, or_false]
  rw [← or_and_right, eq_comm]

lemma setMatches_some : setMatches (some p) param = getMatches (some p) param := by
  funext c
  simp [setMatches, getMatches]

lemma setMatches_none : setMatches none param c = true ↔
    c.proto = none ∧ (param = c.param ∨ (IsRiskName param ∧
      ((¬chars ".info" <:+ param ∧ anyRisk <+: c.param) ∨
        (chars ".info" <:+ param ∧ anyRisk ++ chars ".info" <+: c.param)))) := by
  have withInfo : chars "flow_risk.$FLOWRISK_NAME_OR_ID.info" = anyRisk ++ chars ".info" := by
    decide +kernel
  unfold setMatches namedBy IsRiskName
  rw [withInfo]
  unfold anyRisk
  simp only [Bool.or_eq_true, Bool.and_eq_true, decide_eq_true_eq, isSome_none,
    Bool.false_eq_true, false_and, or_false, true_and, Bool.not_eq_true',
    decide_eq_false_iff_not, @eq_comm _ none c.proto]
  tauto

/-- The setter and the getter choose the same entry, unless the parameter is that of a
flow risk. -/
lemma setMatches_plain (plain : ¬IsRiskName param) :
    setMatches none param = getMatches none param := by
  funext c
  rw [Bool.eq_iff_iff, setMatches_none, getMatches_none]
  tauto

lemma isRiskKind_of_setMatches (mem : c ∈ cfgParams) (found : setMatches none param c = true)
    (risk : IsRiskName param) : isRiskKind c.kind = true := by
  obtain ⟨noProto, same | ⟨-, ⟨-, named⟩ | ⟨-, named⟩⟩⟩ := setMatches_none.mp found
  · rw [same] at risk
    exact (cfgParams_regular c mem).risk.mpr ⟨noProto, risk⟩
  · exact (cfgParams_regular c mem).risk_of_anyRisk named
  · exact (cfgParams_regular c mem).risk_of_anyRisk ((prefix_append _ _).trans named)

section
variable (chosen : cfgParams.find? (setMatches proto param) = some c)
include chosen

/-- The entry that the setter chooses is for flow risks exactly if the parameter is. -/
lemma isRiskKind_iff :
    isRiskKind c.kind = true ↔ proto = none ∧ IsRiskName param := by
  have mem := mem_of_find?_eq_some chosen
  have found := find?_some chosen
  constructor
  · intro kind
    obtain ⟨noProto, named⟩ := (cfgParams_regular c mem).risk.mp kind
    cases proto with
    | none =>
      refine ⟨rfl, ?_⟩
      obtain ⟨-, same | ⟨risk, -⟩⟩ := setMatches_none.mp found
      · rw [same]
        exact named
      · exact risk
    | some p =>
      rw [setMatches_some, getMatches_some, noProto] at found
      simp at found
  · rintro ⟨rfl, risk⟩
    exact isRiskKind_of_setMatches mem found risk

/-- The getter chooses the same entry. -/
lemma getMatches_of_chosen (plain : isRiskKind c.kind = false) :
    cfgParams.find? (getMatches proto param) = some c := by
  cases proto with
  | none =>
    rw [← setMatches_plain]
    · exact chosen
    · intro risk
      rw [(isRiskKind_iff chosen).mpr ⟨rfl, risk⟩] at plain
      cases plain
  | some p =>
    rw [← setMatches_some]
    exact chosen

end

/-- The text that stands for no protocol is not known to the getter. -/
lemma getConfig_null_text (ctx : Context) (bufLen : Nat)
    (chosen : cfgParams.find? (setMatches none param) = some c) :
    getConfig ctx (some (chars "NULL")) param bufLen = .null := by
  have mem := mem_of_find?_eq_some chosen
  have none_ : cfgParams.find? (getMatches (some (chars "NULL")) param) = none := by
    rw [find?_eq_none]
    intro d inTable found
    obtain ⟨isNull | isAny, same⟩ := getMatches_some.mp found
    · exact (cfgParams_regular d inTable).not_null isNull
    · have listed := (cfgParams_regular d inTable).protocol_param isAny
      rw [← same] at listed
      obtain ⟨noProto, named | ⟨risk, -⟩⟩ := setMatches_none.mp (find?_some chosen)
      · rw [named] at listed
        exact (cfgParams_regular c mem).plain_param noProto listed
      · exact protocolParams_plain param listed risk
  unfold getConfig
  rw [none_]
  split <;> rfl

/-- No parameter of a flow risk is read. -/
lemma getConfig_risk (risk : IsRiskName param) :
    getConfig ctx none param bufLen ≠ .text text := by
  unfold getConfig
  split
  · simp
  · cases found : cfgParams.find? (getMatches none param) with
    | none => simp
    | some d =>
      have mem := mem_of_find?_eq_some found
      obtain ⟨noProto, same⟩ := getMatches_none.mp (find?_some found)
      rw [same] at risk
      obtain ⟨field, kind⟩ := isRiskKind_eq ((cfgParams_regular d mem).risk.mpr ⟨noProto, risk⟩)
      simp [getParam, kind]

end

/-- What one parameter is about. -/
inductive Cell where
  | int (field : IntField)
  | bit (field : MaskField) (id : Nat)
  | filename

/-- Everything but the cell is as it was. -/
structure Keeps (cell : Cell) (before after : Config) : Prop where
  ints : ∀ field, cell ≠ .int field → after.int field = before.int field
  sizes : ∀ field, (after.mask field).maxBits = (before.mask field).maxBits
  bits : ∀ field id, id < (before.mask field).maxBits → cell ≠ .bit field id →
    (after.mask field).bits id = (before.mask field).bits id
  filename : cell ≠ .filename → after.filenameConfig = before.filenameConfig

/-- The cell that a protocol and a parameter name, for an entry of this type. -/
def target (m : Module) (proto : Option Text) (param : Text) : ParamKind → Cell
  | .enableDisable field => .int field
  | .int field _ => .int field
  | .protocolEnableDisable field => .bit field (getProtoId m (proto.getD []))
  | .filenameConfig => .filename
  | .flowriskEnableDisable field => .bit field (getFlowriskId (riskName param))

/-- The number that a value stands for. -/
def meaning (kind : ParamKind) (value : Text) : Int :=
  match kind with
  | .int _ _ => (strtonumAuto value).getD 0
  | _ => if switchValue value = some true then 1 else 0

/-- The setter takes this text for no protocol. -/
def asNull (proto : Option Text) : Option Text := if proto = some (chars "NULL") then none else proto

/-- The parameters that can be read back, in a buffer that is large enough. -/
def Readable (ctx : Context) (proto : Option Text) (value : Text) (bufLen : Nat)
    (kind : ParamKind) : Prop :=
  (decimalInt (meaning kind value)).length < bufLen ∧
    match kind with
    | .protocolEnableDisable field =>
      let mask := ctx.cfg.mask field
      let id := getProtoId ctx.module (proto.getD [])
      id ≠ 0 ∧ (id < mask.maxBits ∨ switchValue value = some true) ∧
        (proto = some anyProtocol →
          ∀ i < mask.maxBits, i ≠ id → mask.bits i = decide (switchValue value = some true))
    | .flowriskEnableDisable _ => False
    | _ => proto ≠ some (chars "NULL")

section

variable {env : ConfigEnv} {ctx : Context} {cfg : Config} {proto : Option Text}
  {param value : Text} {c : CfgParam} {field : MaskField} {id bufLen : Nat} {on : Bool}

lemma callback_ok (done : (callback ctx kind).1 = .ok) : callback ctx kind = (.ok, ctx) := by
  cases kind with
  | int field limits =>
    simp only [callback] at done ⊢
    split at done
    · cases done
    · next within => rw [if_neg within]
  | enableDisable field => rfl
  | protocolEnableDisable field => rfl
  | filenameConfig => rfl
  | flowriskEnableDisable field => rfl

/-- Where `ndpi_set_config` succeeds, the setter of the entry's type did it. -/
lemma setConfig_ok (chosen : cfgParams.find? (setMatches (asNull proto) param) = some c)
    (done : (setConfig env ctx proto param value).1 = .ok) :
    setConfig env ctx proto param value = setParam env ctx c.kind (asNull proto) param value ∧
      (setParam env ctx c.kind (asNull proto) param value).1 = .ok := by
  have step : setConfig env ctx proto param value =
      if ctx.finalized then (.contextAlreadyInitialized, ctx)
      else if (setParam env ctx c.kind (asNull proto) param value).1 = .ok ∧
          c.onlyWithGlobalCtx = true then
        callback (setParam env ctx c.kind (asNull proto) param value).2 c.kind
      else setParam env ctx c.kind (asNull proto) param value := by
    unfold asNull at chosen ⊢
    dsimp only [setConfig]
    rw [chosen]
  rw [step] at done ⊢
  generalize setParam env ctx c.kind (asNull proto) param value = result at *
  split at done
  · cases done
  · next unlocked =>
    rw [if_neg unlocked]
    split at done
    · next both =>
      rw [if_pos both, callback_ok done]
      exact ⟨Prod.ext both.1.symm rfl, both.1⟩
    · next other =>
      rw [if_neg other]
      exact ⟨rfl, done⟩

lemma keeps_setInt (cfg : Config) (field : IntField) (value : Int) :
    Keeps (.int field) cfg (cfg.setInt field value) where
  ints := by
    intro other different
    have : other ≠ field := fun same => different (by rw [same])
    simp [Config.setInt, this]
  sizes := fun _ => rfl
  bits := fun _ _ _ _ => rfl
  filename := fun _ => rfl

/-- A mask of the same size keeps the rest if it differs in one bit. -/
lemma keeps_setMask {cfg : Config} {field : MaskField} {id : Nat}
    (size : mask.maxBits = (cfg.mask field).maxBits) :
    Keeps (.bit field id) cfg (cfg.setMask field mask) ↔
      ∀ i < mask.maxBits, i ≠ id → mask.bits i = (cfg.mask field).bits i := by
  constructor
  · intro keeps i inside different
    have same := keeps.bits field i (by omega) (by simp [different.symm])
    simpa [Config.setMask] using same
  · intro same
    refine ⟨fun _ _ => rfl, fun other => ?_, fun other i inside different => ?_, fun _ => rfl⟩
    · by_cases this : other = field <;> simp [Config.setMask, this, size]
    · by_cases this : other = field
      · subst this
        have away : i ≠ id := fun eq => different (by rw [eq])
        simpa [Config.setMask] using same i (by omega) away
      · simp [Config.setMask, this]

variable (mask : Bitmask) (everything : Bool)

lemma assign_bits (id : Nat) (on : Bool) :
    (mask.assign id on).maxBits = mask.maxBits ∧
      ∀ i, i ≠ id → (mask.assign id on).bits i = mask.bits i := by
  unfold Bitmask.assign
  split
  · exact ⟨rfl, fun i different => if_neg different⟩
  · exact ⟨rfl, fun _ _ => rfl⟩

/-- The mask after a setting that is for all bits or for one. -/
def assigned (mask : Bitmask) (everything : Bool) (id : Nat) (on : Bool) : Bitmask :=
  if everything then mask.assignAll on else mask.assign id on

lemma assigned_maxBits (id : Nat) (on : Bool) :
    (assigned mask everything id on).maxBits = mask.maxBits := by
  cases everything
  · exact (assign_bits mask id on).1
  · rfl

/-- A bit outside the mask counts as set whatever was asked for. -/
lemma assigned_isSet (id : Nat) (on : Bool) :
    (assigned mask everything id on).isSet id = on ↔ id < mask.maxBits ∨ on = true := by
  by_cases inside : id < mask.maxBits
  · cases everything <;>
      simp [assigned, Bitmask.isSet, Bitmask.assign, Bitmask.assignAll, inside]
  · cases everything <;> cases on <;>
      simp [assigned, Bitmask.isSet, Bitmask.assign, Bitmask.assignAll, inside]

lemma assigned_keeps (id : Nat) (on : Bool) :
    (∀ i < mask.maxBits, i ≠ id → (assigned mask everything id on).bits i = mask.bits i) ↔
      (everything = true → ∀ i < mask.maxBits, i ≠ id → mask.bits i = on) := by
  cases everything with
  | true =>
    simp only [assigned, if_true, Bitmask.assignAll, true_imp_iff]
    exact forall_congr' fun i => imp_congr_right fun _ => imp_congr_right fun _ => eq_comm
  | false =>
    simp only [assigned, Bool.false_eq_true, if_false, false_imp_iff, iff_true]
    exact fun i _ different => (assign_bits mask id on).2 i different

lemma setParamMask_ok {everything : Bool}
    (done : (setParamMask field everything id value cfg).1 = .ok) :
    ∃ on, switchValue value = some on ∧
      (setParamMask field everything id value cfg).2 = cfg.setMask field
        (assigned (cfg.mask field) everything id on) := by
  cases isSwitch : switchValue value with
  | none => cases everything <;> simp [setParamMask, isSwitch] at done
  | some on =>
    refine ⟨on, rfl, ?_⟩
    cases everything with
    | true => simp [setParamMask, isSwitch, assigned]
    | false =>
      by_cases unknown : id = 0
      · simp [setParamMask, unknown] at done
      · simp [setParamMask, isSwitch, unknown, assigned]

lemma printed_eq_iff :
    (bufLen ≠ 0 ∧ printed text bufLen = .text text) ↔ text.length < bufLen := by
  constructor
  · rintro ⟨room, whole⟩
    have fits := congrArg List.length (Reading.text.inj whole)
    rw [length_take] at fits
    omega
  · intro fits
    refine ⟨by omega, ?_⟩
    rw [printed, take_of_length_le (by omega)]

lemma printed_bit (on : Bool) :
    (bufLen ≠ 0 ∧ printed (decimalInt (if bit then 1 else 0)) bufLen =
      .text (decimalInt (if on then 1 else 0))) ↔
      (decimalInt (if on then 1 else 0)).length < bufLen ∧ bit = on := by
  by_cases same : bit = on
  · subst same
    rw [printed_eq_iff]
    simp
  · have different : printed (decimalInt (if bit then 1 else 0)) bufLen ≠
        .text (decimalInt (if on then 1 else 0)) := by
      have zero : decimalInt 0 = [0x30] := by decide
      have one : decimalInt 1 = [0x31] := by decide
      rcases bufLen with _ | _ | room <;> cases bit <;> cases on <;>
        simp_all [printed]
    simp [same, different]

lemma getConfig_text_iff (found : cfgParams.find? (getMatches proto param) = some c) :
    getConfig ctx proto param bufLen = .text text ↔
      bufLen ≠ 0 ∧ getParam ctx c.kind proto bufLen = .text text := by
  unfold getConfig
  rw [found]
  split
  · next none_ => simp [none_]
  · next some_ => simp [some_]

lemma toInt_of_fits (low : -2147483648 ≤ v) (high : v ≤ 2147483647) : toInt v = v := by
  unfold toInt
  rw [Int.bmod_eq_of_le] <;> omega

variable {f : IntField}

lemma setParam_enableDisable
    (done : (setParam env ctx (.enableDisable f) proto param value).1 = .ok) :
    (setParam env ctx (.enableDisable f) proto param value).2 =
      { ctx with cfg := ctx.cfg.setInt f (meaning (.enableDisable f) value) } := by
  simp only [setParam, setParamEnableDisable] at done ⊢
  split at done
  · next on isSwitch => simp [isSwitch, meaning]
  · cases done

/-- A number within limits that fit is stored as it is. -/
lemma setParam_int (fit : limitsFit (.int f limits) = true)
    (done : (setParam env ctx (.int f limits) proto param value).1 = .ok) :
    (setParam env ctx (.int f limits) proto param value).2 =
      { ctx with cfg := ctx.cfg.setInt f (meaning (.int f limits) value) } := by
  cases limits with
  | none => cases fit
  | some both =>
    obtain ⟨minValue, maxValue⟩ := both
    simp only [limitsFit, Bool.and_eq_true, decide_eq_true_eq] at fit
    simp only [setParam, setParamInt, meaning] at done ⊢
    cases isNumber : strtonumAuto value with
    | none => simp [isNumber] at done
    | some val =>
      simp only [isNumber] at done ⊢
      split at done
      · cases done
      · next inside =>
        rw [if_neg inside]
        simp only [Bool.or_eq_true, decide_eq_true_eq, not_or, not_lt, gt_iff_lt] at inside
        rw [toInt_of_fits (by omega) (by omega)]
        rfl

lemma setParam_protocol (notAny : some p ≠ some (chars "any"))
    (notAll : some p ≠ some (chars "all"))
    (done : (setParam env ctx (.protocolEnableDisable field) (some p) param value).1 = .ok) :
    ∃ on mask, switchValue value = some on ∧
      assigned (ctx.cfg.mask field) (p = anyProtocol) (getProtoId ctx.module p) on = mask ∧
      (setParam env ctx (.protocolEnableDisable field) (some p) param value).2 =
        { ctx with cfg := ctx.cfg.setMask field mask } := by
  have everything (a b q : Text) (notA : some p ≠ some a) (notB : some p ≠ some b) :
      decide (p = a ∨ p = b ∨ p = q) = decide (p = q) := by
    simp only [ne_eq, Option.some.injEq] at notA notB
    simp [notA, notB]
  simp only [setParam, setParamProtocolEnableDisable, getD_some,
    everything _ _ _ notAny notAll] at done ⊢
  obtain ⟨on, isSwitch, stored⟩ := setParamMask_ok done
  exact ⟨on, _, isSwitch, rfl, by rw [stored]; rfl⟩

/-- A number that is stored is read back if the buffer holds its digits. -/
lemma int_read_back_iff {ctx : Context}
    (found : cfgParams.find? (getMatches proto param) = some c) (reads : ∀ ctx : Context,
      getParam ctx c.kind proto bufLen = printed (decimalInt (ctx.cfg.int f)) bufLen) :
    (getConfig { ctx with cfg := ctx.cfg.setInt f v } proto param bufLen = .text (decimalInt v) ∧
      Keeps (.int f) ctx.cfg (ctx.cfg.setInt f v)) ↔ (decimalInt v).length < bufLen := by
  have stored : (ctx.cfg.setInt f v).int f = v := if_pos rfl
  rw [getConfig_text_iff found, reads]
  simp [stored, printed_eq_iff, keeps_setInt]

/-- So is a bit, if it is in the mask or was switched on, and it is the only one that
changes unless all bits were set at once. -/
lemma bit_read_back_iff {ctx : Context} {mask : Bitmask}
    (found : cfgParams.find? (getMatches (some p) param) = some c)
    (kind : c.kind = .protocolEnableDisable field) {everything on : Bool}
    (isId : getProtoId ctx.module p = id)
    (isMask : assigned (ctx.cfg.mask field) everything id on = mask) :
    (getConfig { ctx with cfg := ctx.cfg.setMask field mask } (some p) param bufLen =
        .text (decimalInt (if on then 1 else 0)) ∧
      Keeps (.bit field id) ctx.cfg (ctx.cfg.setMask field mask)) ↔
      (decimalInt (if on then 1 else 0)).length < bufLen ∧ id ≠ 0 ∧
        (id < (ctx.cfg.mask field).maxBits ∨ on = true) ∧
        (everything = true →
          ∀ i < (ctx.cfg.mask field).maxBits, i ≠ id → (ctx.cfg.mask field).bits i = on) := by
  have stored : (ctx.cfg.setMask field mask).mask field = mask := if_pos rfl
  have size : mask.maxBits = (ctx.cfg.mask field).maxBits := by
    rw [← isMask, assigned_maxBits]
  rw [getConfig_text_iff found, keeps_setMask size, size, kind]
  simp only [getParam, getParamMask, stored, isId]
  by_cases unknown : id = 0
  · simp [unknown]
  · rw [if_neg unknown, printed_bit, ← isMask, assigned_isSet, assigned_keeps]
    tauto

end

/-- What was set with success is read back as a number, and nothing else has changed,
exactly where the parameter is readable. -/
theorem config_read_back_iff (env : ConfigEnv) (ctx : Context) (proto : Option Text)
    (param value : Text) (bufLen : Nat) (c : CfgParam)
    (chosen : cfgParams.find? (setMatches (asNull proto) param) = some c)
    (done : (setConfig env ctx proto param value).1 = .ok) (notAny : proto ≠ some (chars "any"))
    (notAll : proto ≠ some (chars "all")) (notFile : c.kind ≠ .filenameConfig) :
    (getConfig (setConfig env ctx proto param value).2 proto param bufLen =
        .text (decimalInt (meaning c.kind value)) ∧
      Keeps (target ctx.module proto param c.kind) ctx.cfg
        (setConfig env ctx proto param value).2.cfg) ↔
      Readable ctx proto value bufLen c.kind := by
  obtain ⟨result, did⟩ := setConfig_ok chosen done
  rw [result]
  have regular := cfgParams_regular c (mem_of_find?_eq_some chosen)
  by_cases isNull : proto = some (chars "NULL")
  · -- the getter finds nothing, and no entry for protocols was chosen
    have asNone : asNull proto = none := if_pos isNull
    rw [asNone] at chosen
    have noProto := (setMatches_none.mp (find?_some chosen)).1
    rw [isNull, getConfig_null_text _ _ chosen]
    apply iff_of_false (by simp)
    rintro ⟨-, readable⟩
    cases kind : c.kind with
    | enableDisable f => simp [kind] at readable
    | int f limits => simp [kind] at readable
    | protocolEnableDisable f =>
      have isAny := regular.protocol.mp (by rw [kind]; rfl)
      rw [noProto] at isAny
      cases isAny
    | filenameConfig => exact notFile kind
    | flowriskEnableDisable f => simp [kind] at readable
  · have same : asNull proto = proto := if_neg isNull
    rw [same] at chosen did ⊢
    cases kind : c.kind with
    | enableDisable f =>
      have found := getMatches_of_chosen chosen (by rw [kind]; rfl)
      rw [kind] at did
      rw [setParam_enableDisable did]
      refine (int_read_back_iff found fun ctx => by rw [kind]; rfl).trans ?_
      simp [Readable, isNull]
    | int f limits =>
      have found := getMatches_of_chosen chosen (by rw [kind]; rfl)
      have fit := cfgParams_limits c (mem_of_find?_eq_some chosen)
      rw [kind] at did fit
      rw [setParam_int fit did]
      refine (int_read_back_iff found fun ctx => by rw [kind]; rfl).trans ?_
      simp [Readable, isNull]
    | protocolEnableDisable f =>
      have found := getMatches_of_chosen chosen (by rw [kind]; rfl)
      rw [kind] at did
      cases proto with
      | none =>
        have isAny := regular.protocol.mp (by rw [kind]; rfl)
        rw [(setMatches_none.mp (find?_some chosen)).1] at isAny
        cases isAny
      | some p =>
        obtain ⟨on, mask, isSwitch, isMask, after⟩ := setParam_protocol notAny notAll did
        have isValue : meaning (.protocolEnableDisable f) value = if on then 1 else 0 := by
          simp [meaning, isSwitch, Option.some.injEq]
        rw [after, isValue]
        apply (bit_read_back_iff found kind rfl isMask).trans
        simp [Readable, isValue, isSwitch, Option.some.injEq]
    | filenameConfig => exact absurd kind notFile
    | flowriskEnableDisable f =>
      obtain ⟨rfl, risk⟩ := (isRiskKind_iff chosen).mp (by rw [kind]; rfl)
      refine iff_of_false ?_ (by simp [Readable])
      rintro ⟨text, -⟩
      exact getConfig_risk risk text

lemma setParamMask_status {id : Nat} :
    (setParamMask field everything id value cfg).1 =
      (setParamMask field everything id value cfg').1 := by
  unfold setParamMask
  split
  · rfl
  · split
    · rfl
    · split <;> rfl

/-- Whether a value is taken does not depend on those that are set. -/
lemma setParam_status (notFile : kind ≠ .filenameConfig) :
    (setParam env { ctx with cfg := cfg } kind proto param value).1 =
      (setParam env ctx kind proto param value).1 := by
  cases kind with
  | enableDisable field =>
    simp only [setParam, setParamEnableDisable]
    split <;> rfl
  | int field limits =>
    simp only [setParam, setParamInt]
    split
    · rfl
    · rw [apply_ite Prod.fst, apply_ite Prod.fst]
  | protocolEnableDisable field => exact setParamMask_status
  | filenameConfig => exact absurd rfl notFile
  | flowriskEnableDisable field =>
    simp only [setParam, setParamFlowriskEnableDisable]
    split
    · exact setParamMask_status
    · rfl

/-- Every default passes the check of its own entry. -/
lemma default_accepted (mem : c ∈ cfgParams)
    (isDefault : c.defaultValue = some value) (cfg : Config) :
    (setParam ⟨fun ctx _ => (.ok, ctx)⟩ ⟨⟨0, [], []⟩, false, false, cfg⟩ c.kind c.proto c.param
      value).1 = .ok := by
  have onBare : ∀ c ∈ cfgParams, ∀ value ∈ c.defaultValue, c.kind ≠ .filenameConfig ∧
      (setParam ⟨fun ctx _ => (.ok, ctx)⟩ ⟨⟨0, [], []⟩, false, false,
        ⟨fun _ => 0, fun _ => ⟨0, fun _ => false⟩, []⟩⟩ c.kind c.proto c.param value).1 = .ok := by
    decide +kernel
  obtain ⟨notFile, accepted⟩ := onBare c mem value isDefault
  exact (setParam_status notFile).trans accepted

/-- A module without protocols, with the default configuration. -/
def freshContext : Context := ⟨⟨0, [], []⟩, false, false, setDefaultConfig 0⟩

def noFiles : ConfigEnv := ⟨fun ctx _ => (.invalidParam, ctx)⟩

theorem http_content_type_read_back :
    getConfig (setConfig noFiles freshContext (some (chars "http"))
        (chars "metadata.req.content_type") (chars "disable")).2 (some (chars "http"))
        (chars "metadata.req.content_type") 16 = .text [0x30] ∧
      Keeps (.int .httpRequestContentTypeEnabled) freshContext.cfg
        (setConfig noFiles freshContext (some (chars "http"))
          (chars "metadata.req.content_type") (chars "disable")).2.cfg :=
  (config_read_back_iff noFiles freshContext (some (chars "http"))
    (chars "metadata.req.content_type") (chars "disable") 16
    (switch (some "http") "metadata.req.content_type" "enable" .httpRequestContentTypeEnabled)
    (by decide +kernel) (by decide +kernel) (by decide +kernel) (by decide +kernel)
    (by decide +kernel)).mpr
    ⟨by decide +kernel, (by decide +kernel : some (chars "http") ≠ some (chars "NULL"))⟩

theorem flow_risk_not_read_back :
    (setConfig noFiles freshContext none (chars "flow_risk.5") (chars "disable")).1 = .ok ∧
      ∀ text, getConfig (setConfig noFiles freshContext none (chars "flow_risk.5")
        (chars "disable")).2 none (chars "flow_risk.5") 16 ≠ .text text :=
  ⟨by decide +kernel, fun _ => getConfig_risk (by decide +kernel)⟩

end Ndpi.Guarantees.Configuration
