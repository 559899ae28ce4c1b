import Mathlib.Data.List.Nodup
import Ndpi.Lib.Run
import Ndpi.Source.CustomRules

/-!
# User ids of custom protocols

Every rule that registers a protocol appends a user id to the mapping: the one it
names, or else the internal id. Mapping there and back is the identity as long as
the ids are distinct, and a rule keeps them so exactly if its id is not taken. An
explicit id may lie above the internal ids in use and so take one that a later rule
gets by default.
-/
namespace Ndpi.Guarantees.UserProtocols
open Lib Source.CustomRules List Option

/-- The protocols the library starts with. -/
structure InternalProtocols where
  protos : List ProtoDefaults
  some : protos ≠ []
  internal : ∀ p ∈ protos, p.isCustomProto = false
  few : protos.length ≤ 65535

def InternalProtocols.module (i : InternalProtocols) : Module := ⟨i.protos.length, i.protos, []⟩

/-- A call of `ndpi_handle_rule`, with the mapping table enlarged when asked for. -/
structure RuleCall where
  env : RuleEnv
  rule : Text

def ruleStep (m : Module) (call : RuleCall) : Module :=
  (handleRule { call.env with mappingGranted := true } m call.rule).2

/-- The user ids of the custom protocols, in the order of registration. -/
def userIds (m : Module) : List Nat :=
  m.ndpiToUserProtoId.take (m.numSupportedProtocols - m.numInternalProtocols)

/-- The user id a rule gives to a protocol, if it registers one. -/
def requestedId (m : Module) (rule : Text) : Option Nat :=
  match splitAtLast '@' rule with
  | none => none
  | some (_, proto) =>
    match parseProtocol m.numSupportedProtocols proto with
    | .error _ => none
    | .ok parsed =>
      if getProtoByName m parsed.name = 0 ∧ m.numSupportedProtocols < 65535 then
        some (assignedId m parsed)
      else none

/-- A rule that registers a protocol names or gets an id no custom protocol has. -/
def IdUnused (m : Module) (call : RuleCall) : Prop :=
  call.env.defaultsGranted = true → ∀ id, requestedId m call.rule = some id → id ∉ userIds m

/-- Mapping to the user id and back is the identity on custom protocols. -/
def RoundTrips (m : Module) : Prop :=
  ∀ p, isCustomProtocol m p = true → mapUserProtoIdToNdpiId m (mapNdpiIdToUserProtoId m p) = p

/-- Every custom protocol has its place in the table. -/
def Mapped (m : Module) : Prop :=
  m.numSupportedProtocols - m.numInternalProtocols ≤ m.ndpiToUserProtoId.length

structure Consistent (m : Module) : Prop where
  some : 0 < m.numInternalProtocols
  ordered : m.numInternalProtocols ≤ m.numSupportedProtocols
  few : m.numSupportedProtocols ≤ 65535
  custom : ∀ p, isCustomProtocol m p = true ↔
    m.numInternalProtocols ≤ p ∧ p < m.numSupportedProtocols
  mapped : Mapped m
  ids : ∀ id ∈ userIds m, m.numInternalProtocols ≤ id

lemma Consistent.userIds_length (consistent : Consistent m) :
    (userIds m).length = m.numSupportedProtocols - m.numInternalProtocols := by
  rw [userIds, length_take]
  exact min_eq_left consistent.mapped

lemma scanUserIds_eq (user : Nat) (ids : List Nat) (idx : Nat) (nonzero : ∀ id ∈ ids, id ≠ 0)
    (member : user ∈ ids) : scanUserIds user ids idx = some (idx + ids.idxOf user) := by
  induction ids generalizing idx with
  | nil => cases member
  | cons id rest ih =>
    rw [scanUserIds, if_neg (nonzero id mem_cons_self)]
    by_cases same : id = user
    · rw [if_pos same, idxOf_cons_eq _ same]
      rfl
    · have later : user ∈ rest := (mem_cons.mp member).resolve_left (Ne.symm same)
      rw [if_neg same, idxOf_cons_ne _ same,
        ih (idx + 1) (fun other inRest => nonzero other (mem_cons_of_mem _ inRest)) later]
      congr 1
      omega

/-- A custom protocol is found at the first place of its user id. -/
lemma Consistent.mapped_back (consistent : Consistent m) (i : Nat)
    (inside : i < (userIds m).length) :
    mapUserProtoIdToNdpiId m (mapNdpiIdToUserProtoId m (m.numInternalProtocols + i)) =
      m.numInternalProtocols + (userIds m).idxOf (userIds m)[i] := by
  have size := consistent.userIds_length
  have some := consistent.some
  have few := consistent.few
  have ordered := consistent.ordered
  have member : (userIds m)[i] ∈ userIds m := getElem_mem inside
  have user : mapNdpiIdToUserProtoId m (m.numInternalProtocols + i) = (userIds m)[i] := by
    have custom : isCustomProtocol m (m.numInternalProtocols + i) = true :=
      (consistent.custom _).mpr (by omega)
    have entry : (userIds m)[i]? = m.ndpiToUserProtoId[i]? := by
      rw [userIds, getElem?_take, if_pos (by omega)]
    rw [mapNdpiIdToUserProtoId, if_neg (by omega), custom, if_neg (by decide), if_pos (by omega)]
    simp only [Nat.add_sub_cancel_left]
    rw [if_pos (by omega), ← entry, getElem?_eq_getElem inside, getD_some]
  have high := consistent.ids _ member
  have found := scanUserIds_eq (userIds m)[i] (userIds m) 0
    (fun id inIds => by have := consistent.ids id inIds; omega) member
  have bound : (userIds m).idxOf (userIds m)[i] < (userIds m).length :=
    idxOf_lt_length_of_mem member
  rw [user, mapUserProtoIdToNdpiId, if_neg (by omega)]
  simp only [show m.ndpiToUserProtoId.take (m.numSupportedProtocols - m.numInternalProtocols) =
    userIds m from rfl, found]
  rw [wrap16_of_lt (by omega)]
  omega

lemma Consistent.roundTrips_iff (consistent : Consistent m) :
    RoundTrips m ↔ (userIds m).Nodup := by
  have size := consistent.userIds_length
  have ordered := consistent.ordered
  constructor
  · intro roundTrips
    have first : ∀ i (inside : i < (userIds m).length), (userIds m).idxOf (userIds m)[i] = i := by
      intro i inside
      have back := consistent.mapped_back i inside
      rw [roundTrips _ ((consistent.custom _).mpr (by omega))] at back
      omega
    rw [nodup_iff_injective_getElem]
    intro i j same
    have left := first i.val i.isLt
    have right := first j.val j.isLt
    apply Fin.ext
    rw [← left, ← right]
    exact congrArg (fun id => (userIds m).idxOf id) same
  · intro nodup p custom
    obtain ⟨low, high⟩ := (consistent.custom p).mp custom
    have inside : p - m.numInternalProtocols < (userIds m).length := by omega
    have back := consistent.mapped_back _ inside
    rw [nodup.idxOf_getElem] at back
    rw [show p = m.numInternalProtocols + (p - m.numInternalProtocols) by omega]
    exact back

/-- The same protocols up to their ports, and the same mapping of them. -/
structure SameProtocols (m m' : Module) : Prop where
  internal : m'.numInternalProtocols = m.numInternalProtocols
  flags : m'.protoDefaults.map (·.isCustomProto) = m.protoDefaults.map (·.isCustomProto)
  mapped : Mapped m → Mapped m'
  userIds : userIds m' = userIds m

lemma isCustomProtocol_eq (m : Module) :
    isCustomProtocol m p = ((m.protoDefaults.map (·.isCustomProto))[p]?).getD false := by
  rw [isCustomProtocol, getElem?_map]

lemma supported_eq (m : Module) :
    m.numSupportedProtocols = (m.protoDefaults.map (·.isCustomProto)).length :=
  (length_map _).symm

lemma SameProtocols.supported (same : SameProtocols m m') :
    m'.numSupportedProtocols = m.numSupportedProtocols := by
  rw [supported_eq, same.flags, ← supported_eq]

lemma Consistent.same (consistent : Consistent m) (same : SameProtocols m m') :
    Consistent m' := by
  have supported := same.supported
  have internal := same.internal
  refine ⟨?_, ?_, ?_, fun p => ?_, ?_, ?_⟩
  · rw [internal]
    exact consistent.some
  · rw [internal, supported]
    exact consistent.ordered
  · rw [supported]
    exact consistent.few
  · rw [isCustomProtocol_eq, same.flags, ← isCustomProtocol_eq, internal, supported]
    exact consistent.custom p
  · exact same.mapped consistent.mapped
  · rw [same.userIds, internal]
    exact consistent.ids

lemma SameProtocols.refl (m : Module) : SameProtocols m m := ⟨rfl, rfl, id, rfl⟩

lemma SameProtocols.trans (ab : SameProtocols a b) (bc : SameProtocols b c) :
    SameProtocols a c :=
  ⟨bc.internal.trans ab.internal, bc.flags.trans ab.flags, bc.mapped ∘ ab.mapped,
    bc.userIds.trans ab.userIds⟩

lemma storeElementPorts_same (range : Source.DefaultPorts.PortRange) :
    SameProtocols m (storeElementPorts m subprotocolId tcp range) := by
  have flags : (storeElementPorts m subprotocolId tcp range).protoDefaults.map (·.isCustomProto) =
      m.protoDefaults.map (·.isCustomProto) := by
    apply ext_getElem?
    intro i
    rw [storeElementPorts, getElem?_map, getElem?_map, getElem?_modify]
    cases m.protoDefaults[i]? with
    | none => simp
    | some d => cases tcp <;> by_cases here : subprotocolId = i <;> simp [here]
  have supported : (storeElementPorts m subprotocolId tcp range).numSupportedProtocols =
      m.numSupportedProtocols := by
    rw [supported_eq, flags, ← supported_eq]
  refine ⟨rfl, flags, fun mapped => ?_, ?_⟩
  · rw [Mapped, supported]
    exact mapped
  · rw [userIds, supported]
    rfl

lemma handleElement_same (env : RuleEnv) (subprotocolId category breed : Nat) (m : Module)
    (attr : Text) : SameProtocols m (handleElement env subprotocolId category breed m attr).2 := by
  unfold handleElement
  cases parseElement attr with
  | ports tcp range => exact storeElementPorts_same _
  | _ => exact .refl m

/-- What relates the states around each element relates those around all of them. -/
lemma handleElements_related {tables : RuleTables σ} (related : σ → σ → Prop)
    (refl : ∀ s, related s s) (trans : ∀ {s t u}, related s t → related t u → related s u)
    (one : ∀ place s attr, related s (tables.element subprotocolId category breed place s attr).2)
    (place : Nat) (s : σ) (elements : List Text) :
    related s (tables.handleElements subprotocolId category breed place s elements).2 := by
  induction elements generalizing place s with
  | nil => exact refl s
  | cons elem rest ih =>
    rw [RuleTables.handleElements]
    dsimp only
    split
    · exact trans (one place s elem) (ih _ _)
    · exact one place s elem

lemma handleElements_same (env : RuleEnv) (subprotocolId category breed place : Nat)
    (elements : List Text) (m : Module) :
    SameProtocols m
      ((moduleOnly env).handleElements subprotocolId category breed place m elements).2 :=
  handleElements_related SameProtocols .refl .trans
    (fun _ => handleElement_same env subprotocolId category breed) place m elements

/-- The table after a mapping is added behind those in use. -/
lemma addUserProtoIdMapping_take (fresh : Nat → Nat) (consistent : Consistent m)
    (room : m.numSupportedProtocols < 65535) (id : Nat) :
    (addUserProtoIdMapping true fresh m m.numSupportedProtocols id).ndpiToUserProtoId.take
      (m.numSupportedProtocols - m.numInternalProtocols + 1) = userIds m ++ [id] := by
  have ordered := consistent.ordered
  have mapped : m.numSupportedProtocols - m.numInternalProtocols ≤ m.ndpiToUserProtoId.length :=
    consistent.mapped
  have placed : ∀ (table : List Nat) (i : Nat), i < table.length →
      (table.set i id).take (i + 1) = table.take i ++ [id] := by
    intro table i inside
    rw [take_succ_eq_append_getElem (by rw [length_set]; exact inside),
      getElem_set_self, take_set, set_eq_of_length_le (length_take_le i table)]
  rw [addUserProtoIdMapping, if_neg (by omega), userIds]
  dsimp only
  split
  · next full =>
    simp only [if_true]
    rw [placed _ _ (by rw [length_map, length_range]; omega)]
    congr 1
    apply ext_getElem?
    intro i
    rw [getElem?_take, getElem?_take]
    split
    · next low =>
      rw [getElem?_map, getElem?_range (by omega), map_some,
        getElem?_eq_getElem (by omega), getD_some]
    · rfl
  · next inside => exact placed _ _ (by omega)

lemma addUserProtoIdMapping_others (granted : Bool) (fresh : Nat → Nat) (m : Module)
    (protoId id : Nat) :
    (addUserProtoIdMapping granted fresh m protoId id).numInternalProtocols =
        m.numInternalProtocols ∧
      (addUserProtoIdMapping granted fresh m protoId id).protoDefaults = m.protoDefaults := by
  unfold addUserProtoIdMapping
  dsimp only
  repeat' split
  all_goals exact ⟨rfl, rfl⟩

lemma getProtoByName_bound (m : Module) (name : Text) :
    getProtoByName m name = 0 ∨
      getProtoByName m name < wrap16 m.numSupportedProtocols ∧
        getProtoByName m name < m.protoDefaults.length := by
  unfold getProtoByName
  split
  · exact .inl rfl
  · dsimp only
    split
    · next found =>
      have least := findIdx_lt_length.mpr (any_eq_true.mp found)
      rw [length_take] at least
      exact .inr (Nat.lt_min.mp least)
    · exact .inl rfl

/-- How the registration of a protocol ends: there are too many, there is no memory, or
it comes after all others, without ports. -/
lemma registerProtocol_outcomes :
    (65535 ≤ m.numSupportedProtocols ∧ registerProtocol env m proto = (-2, m)) ∨
    (m.numSupportedProtocols < 65535 ∧ env.defaultsGranted = false ∧
      registerProtocol env m proto = (-3, addUserProtoIdMapping env.mappingGranted env.fresh m
        m.numSupportedProtocols (assignedId m proto))) ∨
    (m.numSupportedProtocols < 65535 ∧ env.defaultsGranted = true ∧
      (registerProtocol env m proto).1 = 0 ∧
      (registerProtocol env m proto).2.protoDefaults = m.protoDefaults ++
        [⟨proto.name.take 31, true, proto.category, proto.breed, noPorts, noPorts⟩]) := by
  unfold registerProtocol setProtoDefaults
  split
  · next full =>
    exact .inl ⟨full, rfl⟩
  · next full =>
    cases granted : env.defaultsGranted with
    | false => exact .inr (.inl ⟨Nat.lt_of_not_le full, rfl, rfl⟩)
    | true =>
      refine .inr (.inr ⟨Nat.lt_of_not_le full, rfl, rfl, ?_⟩)
      have others := (addUserProtoIdMapping_others env.mappingGranted env.fresh m
        m.numSupportedProtocols (assignedId m proto)).2
      exact congrArg (· ++ [_]) others

/-- One protocol more, with this user id. -/
structure Registers (m m' : Module) (id : Nat) : Prop where
  internal : m'.numInternalProtocols = m.numInternalProtocols
  flags : m'.protoDefaults.map (·.isCustomProto) = m.protoDefaults.map (·.isCustomProto) ++ [true]
  mapped : Mapped m'
  userIds : userIds m' = userIds m ++ [id]

lemma Registers.supported {id : Nat} (registers : Registers m m' id) :
    m'.numSupportedProtocols = m.numSupportedProtocols + 1 := by
  rw [supported_eq, registers.flags, length_append, ← supported_eq]
  rfl

lemma Registers.same {id : Nat} (registers : Registers a b id) (same : SameProtocols b c) :
    Registers a c id :=
  ⟨same.internal.trans registers.internal, same.flags.trans registers.flags,
    same.mapped registers.mapped, same.userIds.trans registers.userIds⟩

lemma Consistent.registers {id : Nat} (consistent : Consistent m) (registers : Registers m m' id)
    (room : m.numSupportedProtocols < 65535) (high : m.numInternalProtocols ≤ id) :
    Consistent m' := by
  have supported := registers.supported
  have internal := registers.internal
  have ordered := consistent.ordered
  have flags : ∀ p, isCustomProtocol m' p =
      if p < m.numSupportedProtocols then isCustomProtocol m p
      else decide (p = m.numSupportedProtocols) := by
    intro p
    have size : (m.protoDefaults.map (·.isCustomProto)).length = m.numSupportedProtocols :=
      length_map _
    rw [isCustomProtocol_eq, registers.flags]
    split
    · next old => rw [getElem?_append_left (by omega), ← isCustomProtocol_eq]
    · next new =>
      rw [getElem?_append_right (by omega), size]
      by_cases last : p = m.numSupportedProtocols
      · simp [last]
      · rw [getElem?_eq_none (by simp; omega)]
        simp [last]
  refine ⟨by rw [internal]; exact consistent.some, by omega, by omega, fun p => ?_, ?_, ?_⟩
  · rw [flags, internal, supported]
    split
    · next old =>
      rw [consistent.custom]
      omega
    · next new =>
      rw [decide_eq_true_iff]
      omega
  · exact registers.mapped
  · rw [registers.userIds, internal]
    intro other member
    rcases mem_append.mp member with old | new
    · exact consistent.ids other old
    · rw [mem_singleton.mp new]
      exact high

lemma strtonum_range (read : strtonum text minval maxval = .ok val) :
    minval ≤ val ∧ val ≤ maxval := by
  unfold strtonum at read
  split at read
  · cases read
  · dsimp only at read
    split at read
    · cases read
    · split at read
      · cases read
      · split at read
        · cases read
        · cases read
          omega

variable {parsed : RuleProtocol}

/-- An explicit user id is none of the internal ids in use. -/
lemma parseProtocol_range (read : parseProtocol numSupported proto = .ok parsed) :
    parsed.userProtoId = 0 ∨ numSupported ≤ parsed.userProtoId := by
  unfold parseProtocol at read
  dsimp only at read
  split at read
  · cases read
    exact .inl rfl
  · split at read
    · cases read
    · next id valid =>
      have range := strtonum_range valid
      cases read
      right
      show numSupported ≤ wrap16 id.toNat
      rw [wrap16_of_lt (by omega)]
      omega

lemma assignedId_high (read : parseProtocol m.numSupportedProtocols proto = .ok parsed) :
    m.numSupportedProtocols ≤ assignedId m parsed := by
  rw [assignedId]
  split
  · exact le_refl _
  · next explicit => exact (parseProtocol_range read).resolve_left explicit

section

variable (fresh : Nat → Nat) {m : Module} (consistent : Consistent m)
  (room : m.numSupportedProtocols < 65535) (id : Nat)

include consistent room

lemma addUserProtoIdMapping_length :
    m.numSupportedProtocols - m.numInternalProtocols + 1 ≤
      (addUserProtoIdMapping true fresh m m.numSupportedProtocols id).ndpiToUserProtoId.length := by
  have size := congrArg List.length (addUserProtoIdMapping_take fresh consistent room id)
  rw [length_take, length_append, consistent.userIds_length, length_singleton] at size
  omega

/-- A mapping without its protocol is behind those in use. -/
lemma addUserProtoIdMapping_same :
    SameProtocols m (addUserProtoIdMapping true fresh m m.numSupportedProtocols id) := by
  have table := addUserProtoIdMapping_take fresh consistent room id
  have size := addUserProtoIdMapping_length fresh consistent room id
  obtain ⟨internal, defaults⟩ :=
    addUserProtoIdMapping_others true fresh m m.numSupportedProtocols id
  generalize addUserProtoIdMapping true fresh m m.numSupportedProtocols id = mapped
    at table size internal defaults
  have supported : mapped.numSupportedProtocols = m.numSupportedProtocols := by
    rw [Module.numSupportedProtocols, defaults]
    rfl
  refine ⟨internal, by rw [defaults], fun _ => ?_, ?_⟩
  · rw [Mapped, supported, internal]
    omega
  · have shorter := congrArg
      (List.take (m.numSupportedProtocols - m.numInternalProtocols)) table
    rw [take_take, min_eq_left (Nat.le_succ _), take_left' consistent.userIds_length] at shorter
    rw [userIds, supported, internal, shorter]

/-- A mapping and its protocol. -/
lemma addUserProtoIdMapping_registers (new : ProtoDefaults) (custom : new.isCustomProto = true) :
    Registers m { addUserProtoIdMapping true fresh m m.numSupportedProtocols id with
      protoDefaults :=
        (addUserProtoIdMapping true fresh m m.numSupportedProtocols id).protoDefaults ++ [new] }
      id := by
  have table := addUserProtoIdMapping_take fresh consistent room id
  have size := addUserProtoIdMapping_length fresh consistent room id
  have ordered := consistent.ordered
  obtain ⟨internal, defaults⟩ :=
    addUserProtoIdMapping_others true fresh m m.numSupportedProtocols id
  generalize addUserProtoIdMapping true fresh m m.numSupportedProtocols id = mapped
    at table size internal defaults ⊢
  have supported : ({ mapped with protoDefaults := mapped.protoDefaults ++ [new] } :
      Module).numSupportedProtocols = m.numSupportedProtocols + 1 := by
    rw [Module.numSupportedProtocols, length_append, defaults]
    rfl
  have count : m.numSupportedProtocols + 1 - m.numInternalProtocols =
      m.numSupportedProtocols - m.numInternalProtocols + 1 := by omega
  refine ⟨internal, ?_, ?_, ?_⟩
  · rw [map_append, defaults, map_singleton, custom]
  · rw [Mapped, supported]
    show _ - mapped.numInternalProtocols ≤ mapped.ndpiToUserProtoId.length
    rw [internal, count]
    exact size
  · rw [userIds, supported]
    show mapped.ndpiToUserProtoId.take (_ - mapped.numInternalProtocols) = _
    rw [internal, count, table]

end

/-- What the registration of a new protocol does. -/
lemma registerProtocol_cases (env : RuleEnv) (consistent : Consistent m) (proto : RuleProtocol) :
    ((registerProtocol { env with mappingGranted := true } m proto).1 = 0 ∧
        m.numSupportedProtocols < 65535 ∧ env.defaultsGranted = true ∧
        Registers m (registerProtocol { env with mappingGranted := true } m proto).2
          (assignedId m proto)) ∨
      ((registerProtocol { env with mappingGranted := true } m proto).1 ≠ 0 ∧
        (m.numSupportedProtocols < 65535 → env.defaultsGranted = false) ∧
        SameProtocols m (registerProtocol { env with mappingGranted := true } m proto).2) := by
  unfold registerProtocol
  by_cases room : m.numSupportedProtocols < 65535
  · rw [if_neg (Nat.not_le.mpr room)]
    cases granted : env.defaultsGranted with
    | true =>
      exact .inl ⟨rfl, room, rfl, addUserProtoIdMapping_registers env.fresh consistent room _ _ rfl⟩
    | false =>
      exact .inr ⟨(by decide : (-3 : Int) ≠ 0), fun _ => rfl,
        addUserProtoIdMapping_same env.fresh consistent room _⟩
  · rw [if_pos (Nat.le_of_not_lt room)]
    exact .inr ⟨(by decide : (-2 : Int) ≠ 0), fun less => absurd less room, .refl m⟩

/-- A rule registers the protocol its text asks for, or leaves the protocols as they
are. -/
lemma ruleStep_cases (consistent : Consistent m) :
    (∃ id, requestedId m call.rule = some id ∧ call.env.defaultsGranted = true ∧
      m.numSupportedProtocols < 65535 ∧ m.numInternalProtocols ≤ id ∧
      Registers m (ruleStep m call) id) ∨
    ((requestedId m call.rule = none ∨ call.env.defaultsGranted = false) ∧
      SameProtocols m (ruleStep m call)) := by
  unfold ruleStep handleRule RuleTables.handleRule requestedId
  cases splitAtLast '@' call.rule with
  | none => exact .inr ⟨.inl rfl, .refl m⟩
  | some parts =>
    obtain ⟨elements, proto⟩ := parts
    dsimp only [moduleOnly]
    cases read : parseProtocol m.numSupportedProtocols proto with
    | error message => exact .inr ⟨.inl rfl, .refl m⟩
    | ok parsed =>
      have high := assignedId_high read
      have ordered := consistent.ordered
      dsimp only [RuleTables.handleProtocolRule]
      by_cases new : getProtoByName m parsed.name = 0
      · simp only [new, if_true, true_and]
        have cases := registerProtocol_cases call.env consistent parsed
        generalize registerProtocol { call.env with mappingGranted := true } m parsed =
          registered at cases
        obtain ⟨rc, m'⟩ := registered
        rcases cases with ⟨success, room, granted, registers⟩ | ⟨failure, refused, same⟩
        · cases success
          have elementsSame := handleElements_same { call.env with mappingGranted := true }
            m.numSupportedProtocols parsed.category parsed.breed 0 (elements.splitOn ',') m'
          refine .inl ⟨assignedId m parsed, if_pos room, granted, room, by omega, ?_⟩
          exact registers.same elementsSame
        · refine .inr ⟨?_, ?_⟩
          · by_cases room : m.numSupportedProtocols < 65535
            · exact .inr (refused room)
            · exact .inl (if_neg room)
          · rw [if_pos failure]
            exact same
      · simp only [new, if_false, false_and]
        exact .inr ⟨.inl trivial, handleElements_same _ _ _ _ _ _ _⟩

lemma ruleStep_consistent (m : Module) (call : RuleCall) (consistent : Consistent m) :
    Consistent (ruleStep m call) := by
  rcases ruleStep_cases consistent with ⟨id, _, _, room, high, registers⟩ | ⟨_, same⟩
  · exact consistent.registers registers room high
  · exact consistent.same same

lemma ruleStep_roundTrips_iff (m : Module) (call : RuleCall) (consistent : Consistent m)
    (held : RoundTrips m) : RoundTrips (ruleStep m call) ↔ IdUnused m call := by
  rw [(ruleStep_consistent m call consistent).roundTrips_iff]
  rw [consistent.roundTrips_iff] at held
  rcases ruleStep_cases consistent with
    ⟨id, requested, granted, _, _, registers⟩ | ⟨nothing, same⟩
  · rw [registers.userIds, IdUnused, nodup_append]
    simp only [granted, requested, held, nodup_singleton, mem_singleton, true_and,
      forall_const, Option.some.injEq, forall_eq', forall_eq]
    exact ⟨fun apart member => apart id member rfl, fun unused other member => by
      rintro rfl
      exact unused member⟩
  · rw [same.userIds]
    refine iff_of_true held fun granted id requested => ?_
    rcases nothing with none | refused
    · cases none.symm.trans requested
    · cases granted.symm.trans refused

variable (i : InternalProtocols)

lemma consistent_start : Consistent i.module := by
  refine ⟨length_pos_iff.mpr i.some, Nat.le_refl _, i.few, fun p => ?_, ?_, ?_⟩
  · refine iff_of_false ?_ fun range => absurd range.2 (Nat.not_lt.mpr range.1)
    rw [isCustomProtocol]
    cases entry : i.module.protoDefaults[p]? with
    | none => simp
    | some d =>
      have internal := i.internal d (mem_of_getElem? entry)
      simp [internal]
  · exact Nat.le_of_eq (Nat.sub_self _)
  · intro id member
    rw [userIds, InternalProtocols.module, take_nil] at member
    cases member

lemma roundTrips_start : RoundTrips i.module := by
  rw [(consistent_start i).roundTrips_iff, userIds, InternalProtocols.module, take_nil]
  exact nodup_nil

/-- Through any sequence of rules the user ids of the custom protocols map back to
them if and only if no rule that registers a protocol names, or gets by default, a
user id that is taken. -/
theorem user_ids_round_trip_iff (i : InternalProtocols) (calls : List RuleCall) :
    Throughout ruleStep RoundTrips i.module calls ↔ EveryStep ruleStep IdUnused i.module calls :=
  throughout_iff_everyStep ⟨consistent_start i, roundTrips_start i⟩ ruleStep_consistent
    ruleStep_roundTrips_iff

def unknownProtocol : ProtoDefaults :=
  ⟨['U', 'n', 'k', 'n', 'o', 'w', 'n'], false, 0, 0, noPorts, noPorts⟩

def onlyUnknown : InternalProtocols :=
  ⟨[unknownProtocol], by decide, by decide, by decide⟩

def quietEnv : RuleEnv := ⟨fun _ => -1, fun _ _ _ _ => 0, true, true, fun _ => 0⟩

/-- The rules `tcp:1@A=2` and `tcp:2@B`. -/
def clashingRules : List RuleCall :=
  [⟨quietEnv, ['t', 'c', 'p', ':', '1', '@', 'A', '=', '2']⟩,
    ⟨quietEnv, ['t', 'c', 'p', ':', '2', '@', 'B']⟩]

/-- The first rule takes user id 2 for protocol 1; the second registers protocol 2
and gets the same user id, which maps back to protocol 1. -/
theorem user_ids_clash :
    isCustomProtocol (run ruleStep onlyUnknown.module clashingRules) 2 = true ∧
      mapNdpiIdToUserProtoId (run ruleStep onlyUnknown.module clashingRules) 2 = 2 ∧
      mapUserProtoIdToNdpiId (run ruleStep onlyUnknown.module clashingRules) 2 = 1 := by decide

end Ndpi.Guarantees.UserProtocols
