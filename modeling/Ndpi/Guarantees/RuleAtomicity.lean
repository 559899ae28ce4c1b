import Ndpi.Guarantees.NetworkRules
import Ndpi.Guarantees.UserProtocols
import Ndpi.Source.RuleElements

/-!
# What a failed rule leaves behind

A rule is carried out while it is read: a new protocol is registered before the first
element, and each element is added before the next one is looked at. Nothing is taken
back when an element fails. So a failed rule leaves the protocols, the ids and the
tables as they were exactly if it failed before anything was stored in them.
-/
namespace Ndpi.Guarantees.RuleAtomicity
open Lib Source.RuleElements List
open Source.CustomRules hiding handleElement handleRule
open Source.NetworkRules (Node PatriciaTree fillPrefix storeRule)

/-- The number of protocols, the ids of the user, the trees of ports and the tables of
hosts and addresses are unchanged. -/
structure AsBefore (s t : RuleState) : Prop where
  count : t.module.numSupportedProtocols = s.module.numSupportedProtocols
  mapping : t.module.ndpiToUserProtoId = s.module.ndpiToUserProtoId
  tcpTree : t.tcpRoot = s.tcpRoot
  udpTree : t.udpRoot = s.udpRoot
  hosts : t.hostAutoma = s.hostAutoma
  addresses : t.protocols = s.protocols

lemma AsBefore.iff (same : AsBefore s t) : AsBefore s u ↔ AsBefore t u := by
  constructor
  · intro later
    exact ⟨later.count.trans same.count.symm, later.mapping.trans same.mapping.symm,
      later.tcpTree.trans same.tcpTree.symm, later.udpTree.trans same.udpTree.symm,
      later.hosts.trans same.hosts.symm, later.addresses.trans same.addresses.symm⟩
  · intro later
    exact ⟨later.count.trans same.count, later.mapping.trans same.mapping,
      later.tcpTree.trans same.tcpTree, later.udpTree.trans same.udpTree,
      later.hosts.trans same.hosts, later.addresses.trans same.addresses⟩

/-- A name that the host automaton takes and does not have. -/
def NewHost (memory : Allocations) (automa : Option Automaton) (text : Text) : Prop :=
  ∃ a, automa = some a ∧ a.automataOpen = true ∧ text ≠ [] ∧ text.length ≤ 256 ∧
    memory.strdup = true ∧ memory.pattern = true ∧
    ∀ p ∈ a.patterns, p.astring.map ahoLc ≠ text.map ahoLc

/-- An address with a node that takes one more protocol. -/
def NewAddress (memory : Allocations) (protocols : Option Source.NetworkRules.Ptree)
    (address : Option HostAddress) (protocolId : UInt16) : Prop :=
  ∃ tree host, protocols = some tree ∧ address = some host ∧ hasNode memory tree host = true ∧
    Source.NetworkRules.addHostIpSubprotocol memory.listItem ⟨0, tree⟩
      (host.rule protocolId) ≠ none

/-- An element that stores a host or an address. -/
def Stores (env : ElementEnv) (subprotocolId place : Nat) (s : RuleState) (attr : Text) : Prop :=
  match parseElement attr with
  | .host (some text) => NewHost (env.memory place) s.hostAutoma text
  | .ip value isIpv6 =>
    NewAddress (env.memory place) s.protocols (env.address value isIpv6) (UInt16.ofNat subprotocolId)
  | _ => False

/-- The mapping has the entry of a new protocol already, or cannot take it. -/
def MappingKept (env : RuleEnv) (m : Module) (proto : RuleProtocol) : Prop :=
  m.numSupportedProtocols < m.numInternalProtocols ∨
    (m.ndpiToUserProtoId.length ≤ m.numSupportedProtocols - m.numInternalProtocols ∧
      env.mappingGranted = false) ∨
    m.ndpiToUserProtoId[m.numSupportedProtocols - m.numInternalProtocols]? =
      some (assignedId m proto)

/-- A rule that stores nothing before it fails. A new protocol must not get as far as
being registered; for a known one, an element that stores something comes only after
one that fails. -/
def Kept (env : ElementEnv) (s : RuleState) (rule : Text) : Prop :=
  ∀ elements text proto, splitAtLast '@' rule = some (elements, text) →
    parseProtocol s.module.numSupportedProtocols text = .ok proto →
    let id := getProtoByName s.module proto.name
    (id = 0 → 65535 ≤ s.module.numSupportedProtocols ∨
      env.rules.defaultsGranted = false ∧ MappingKept env.rules s.module proto) ∧
    (id ≠ 0 → ∀ before elem after, elements.splitOn ',' = before ++ elem :: after →
      Stores env id before.length s elem →
        ((allTables env).handleElements id (knownDefaults s.module id proto).1
          (knownDefaults s.module id proto).2 0 s before).1 ≠ 0)

/-- How many protocols a node holds. -/
def load : Option Node → Nat
  | none => 0
  | some node => node.uv16.toList.countP (·.userValue ≠ 0) + node.data.length

lemma load_new : load (some Node.new) = 0 := by decide

lemma node_slots (node : Node) : ∃ first second data, node = ⟨#v[first, second], data⟩ := by
  obtain ⟨⟨⟨slots⟩, size⟩, data⟩ := node
  obtain ⟨first, second, rfl⟩ := length_eq_two.mp size
  exact ⟨first, second, data, rfl⟩

lemma load_storeRule (known : protocolId ≠ 0)
    {after : Node} (stored : storeRule granted protocolId port node = some after) :
    load (some after) = load (some node) + 1 := by
  rw [NetworkRules.storeRule_push ⟨port, protocolId⟩ stored]
  obtain ⟨first, second, data, rfl⟩ := node_slots node
  have count : ∀ a b rest, load (some ⟨#v[a, b], rest⟩) =
      (if a.userValue = 0 then 0 else 1) + (if b.userValue = 0 then 0 else 1) + rest.length := by
    intro a b rest
    unfold load
    simp only [Vector.toList_mk, countP_cons, countP_nil]
    by_cases zero : a.userValue = 0 <;> by_cases zero' : b.userValue = 0 <;> simp [zero, zero']
  have value : (NetworkRules.PortRule.value ⟨port, protocolId⟩).userValue ≠ 0 := known
  rw [NetworkRules.push_eq, count]
  by_cases free : first.userValue = 0
  · rw [if_pos free, count, if_neg value, if_pos free]
    omega
  · rw [if_neg free]
    by_cases free' : second.userValue = 0
    · rw [if_pos free', count, if_neg value, if_neg free, if_pos free']
      omega
    · rw [if_neg free', count, length_cons]
      omega

lemma load_add {width maxbits : Nat} {tree after : PatriciaTree maxbits} {granted : Bool}
    {address : BitVec width} {bits : Nat} {port protocolId : UInt16} (known : protocolId ≠ 0)
    (added : tree.add granted address bits port protocolId = some after) :
    (∀ key, load (tree.nodes key) ≤ load (after.nodes key)) ∧
      ∃ key, load (tree.nodes key) < load (after.nodes key) := by
  obtain ⟨node, stored, rfl⟩ := Option.map_eq_some_iff.mp added
  have grows := load_storeRule known stored
  have there : load (some ((tree.nodes (fillPrefix address bits tree.maxbits)).getD .new)) =
      load (tree.nodes (fillPrefix address bits tree.maxbits)) := by
    cases tree.nodes (fillPrefix address bits tree.maxbits) with
    | none => exact load_new
    | some node => rfl
  rw [there] at grows
  refine ⟨fun key => ?_, fillPrefix address bits tree.maxbits, ?_⟩ <;> dsimp only
  · by_cases same : key = fillPrefix address bits tree.maxbits
    · rw [same, PrefixMap.alter_self]
      omega
    · rw [PrefixMap.alter_of_ne _ _ same]
  · rw [PrefixMap.alter_self]
    omega

def patterns (automa : Option Automaton) : List HostPattern := (automa.map (·.patterns)).getD []

def v4Load (protocols : Option Source.NetworkRules.Ptree) (key : List Bool) : Nat :=
  load ((protocols.map fun tree => tree.v4.nodes key).getD none)

def v6Load (protocols : Option Source.NetworkRules.Ptree) (key : List Bool) : Nat :=
  load ((protocols.map fun tree => tree.v6.nodes key).getD none)

/-- The tables of hosts and addresses hold no less than before. -/
structure Grown (s t : RuleState) : Prop where
  hosts : (patterns s.hostAutoma).length ≤ (patterns t.hostAutoma).length
  v4 : ∀ key, v4Load s.protocols key ≤ v4Load t.protocols key
  v6 : ∀ key, v6Load s.protocols key ≤ v6Load t.protocols key

lemma Grown.of_eq (hosts : t.hostAutoma = s.hostAutoma) (addresses : t.protocols = s.protocols) :
    Grown s t := by
  refine ⟨?_, fun key => ?_, fun key => ?_⟩
  · rw [hosts]
  · rw [addresses]
  · rw [addresses]

lemma Grown.trans (first : Grown s t) (second : Grown t u) : Grown s u :=
  ⟨le_trans first.hosts second.hosts,
    fun key => le_trans (first.v4 key) (second.v4 key),
    fun key => le_trans (first.v6 key) (second.v6 key)⟩

section

variable (env : ElementEnv) (subprotocolId category breed : Nat) {address : Option HostAddress}
  {protocolId : UInt16}

lemma addHostIp_frame : ∃ protocols,
      (addHostIpSubprotocol memory s address protocolId).2 = { s with protocols := protocols } := by
  unfold addHostIpSubprotocol
  split
  · split
    · split
      · next m added => exact ⟨some m.protocols, rfl⟩
      · exact ⟨s.protocols, rfl⟩
    · exact ⟨s.protocols, rfl⟩
  · exact ⟨s.protocols, rfl⟩

lemma addJa4_frame (memory : Allocations) (s : RuleState) (value : Text) : ∃ hash,
    (addJa4Subprotocol memory env.decodeTlsBlocks s value subprotocolId).2 =
      { s with ja4CustomProtos := hash } := by
  unfold addJa4Subprotocol
  split
  · exact ⟨s.ja4CustomProtos, rfl⟩
  · split
    · exact ⟨s.ja4CustomProtos, rfl⟩
    · exact ⟨_, rfl⟩

lemma addNdpifp_frame (memory : Allocations) (s : RuleState) (value : Text) : ∃ hash,
    (addNdpifpSubprotocol memory s value subprotocolId).2 =
      { s with ndpifpCustomProtos := hash } := by
  unfold addNdpifpSubprotocol
  split
  · exact ⟨s.ndpifpCustomProtos, rfl⟩
  · exact ⟨_, rfl⟩

/-- A part of the state that is kept by what an element with ports, an address or a host
does is kept by every element: the others only reach the three hash tables. -/
lemma handleElement_keeps (part : RuleState → α) (place : Nat) (s : RuleState)
    (attr : Text) (ports : ∀ tcp range, parseElement attr = .ports tcp range →
      part { s with module := storeElementPorts s.module subprotocolId tcp range } = part s)
    (ip : ∀ value isIpv6, parseElement attr = .ip value isIpv6 →
      part (addHostIpSubprotocol (env.memory place) s (env.address value isIpv6)
        (UInt16.ofNat subprotocolId)).2 = part s) (host : ∀ value, parseElement attr = .host value →
      part (addHostUrlSubprotocol (env.memory place) s value subprotocolId category breed).2 =
        part s) (tables : ∀ ja4 ndpifp url, part { s with
      ja4CustomProtos := ja4, ndpifpCustomProtos := ndpifp, httpUrlHashmap := url } = part s) :
    part (handleElement env subprotocolId category breed place s attr).2 = part s := by
  unfold handleElement
  cases element : parseElement attr with
  | ports tcp range => exact ports tcp range element
  | ip value isIpv6 => exact ip value isIpv6 element
  | host value => exact host value element
  | nbpf => rfl
  | ja4 value =>
    obtain ⟨hash, same⟩ := addJa4_frame env subprotocolId (env.memory place) s value
    rw [same]
    exact tables hash s.ndpifpCustomProtos s.httpUrlHashmap
  | ndpifp value =>
    obtain ⟨hash, same⟩ := addNdpifp_frame subprotocolId (env.memory place) s value
    rw [same]
    exact tables s.ja4CustomProtos hash s.httpUrlHashmap
  | httpUrl value => exact tables s.ja4CustomProtos s.ndpifpCustomProtos _

variable {memory : Allocations} {s : RuleState}

/-- Only the elements with ports change the protocols. -/
lemma handleElement_module_kept (other : ∀ tcp range, parseElement attr ≠ .ports tcp range) :
    (handleElement env subprotocolId category breed place s attr).2.module = s.module := by
  refine handleElement_keeps env subprotocolId category breed (·.module) place s attr
    (fun tcp range element => absurd element (other tcp range)) (fun value isIpv6 _ => ?_)
    (fun _ _ => rfl) (fun _ _ _ => rfl)
  obtain ⟨protocols, same⟩ := addHostIp_frame
  rw [same]

/-- No element touches the trees of ports. -/
lemma handleElement_trees (place : Nat) (s : RuleState) (attr : Text) :
    (handleElement env subprotocolId category breed place s attr).2.tcpRoot = s.tcpRoot ∧
      (handleElement env subprotocolId category breed place s attr).2.udpRoot = s.udpRoot := by
  refine Prod.mk.inj (handleElement_keeps env subprotocolId category breed
    (fun t => (t.tcpRoot, t.udpRoot)) place s attr (fun _ _ _ => rfl)
    (fun value isIpv6 _ => ?_) (fun _ _ => rfl) (fun _ _ _ => rfl))
  obtain ⟨protocols, same⟩ := addHostIp_frame
  rw [same]

/-- No element touches the number of protocols, the ids of the user and the trees of
ports. -/
lemma handleElement_frame (place : Nat) (s : RuleState) (attr : Text) :
    let t := (handleElement env subprotocolId category breed place s attr).2
    t.module.numSupportedProtocols = s.module.numSupportedProtocols ∧
      t.module.ndpiToUserProtoId = s.module.ndpiToUserProtoId ∧
      t.tcpRoot = s.tcpRoot ∧ t.udpRoot = s.udpRoot := by
  have trees := handleElement_trees env subprotocolId category breed place s attr
  dsimp only
  by_cases ports : ∃ tcp range, parseElement attr = .ports tcp range
  · obtain ⟨tcp, range, element⟩ := ports
    have stored : (handleElement env subprotocolId category breed place s attr).2.module =
        storeElementPorts s.module subprotocolId tcp range := by
      unfold handleElement
      rw [element]
    rw [stored]
    exact ⟨length_modify .., rfl, trees⟩
  · rw [handleElement_module_kept env subprotocolId category breed
      fun tcp range element => ports ⟨tcp, range, element⟩]
    exact ⟨rfl, rfl, trees⟩

lemma acAutomataAdd_cases :
    (acAutomataAdd granted a patt).2 = a ∨
      a.automataOpen = true ∧ patt.astring ≠ [] ∧ patt.astring.length ≤ 256 ∧
        (∀ p ∈ a.patterns, p.astring.map ahoLc ≠ patt.astring.map ahoLc) ∧ granted = true := by
  unfold acAutomataAdd
  split
  · exact .inl rfl
  split
  · exact .inl rfl
  split
  · exact .inl rfl
  split
  · exact .inl rfl
  split
  · next closed zero long there memory =>
    refine .inr ⟨Bool.not_eq_false _ ▸ closed, zero, Nat.le_of_not_lt long, ?_, memory⟩
    intro p member same
    exact there (any_eq_true.mpr ⟨p, member, decide_eq_true same⟩)
  · exact .inl rfl

variable {automa : Option Automaton}

lemma stringToAutoma_kept (old : ∀ text, value = some text → ¬ NewHost memory automa text) :
    (stringToAutoma memory automa value subprotocolId category breed).2 = automa := by
  unfold stringToAutoma
  cases automa with
  | none => rfl
  | some a =>
    cases value with
    | none => rfl
    | some text =>
      dsimp only
      by_cases empty : text = []
      · rw [if_pos empty]
      · by_cases copied : memory.strdup = false
        · rw [if_neg empty, if_pos copied]
        · rw [if_neg empty, if_neg copied]
          obtain same | ⟨opened, -, short, new, room⟩ := acAutomataAdd_cases
          · exact congrArg some same
          · refine absurd ⟨a, rfl, opened, empty, short, ?_, room, new⟩ (old text rfl)
            exact Bool.not_eq_false _ ▸ copied

lemma stringToAutoma_stored (new : NewHost memory automa text) :
    (patterns automa).length <
      (patterns (stringToAutoma memory automa (some text) subprotocolId category breed).2).length := by
  obtain ⟨a, rfl, opened, some, short, copied, room, absent⟩ := new
  have other : (a.patterns.any fun p => p.astring.map ahoLc = text.map ahoLc) = false := by
    rw [List.any_eq_false]
    intro p member
    simpa using absent p member
  have long : ¬ text.length > 256 := not_lt.mpr short
  simp [stringToAutoma, acAutomataAdd, patterns, opened, some, long, copied, room, other]

lemma addHostIp_kept (old : ¬ NewAddress memory s.protocols address protocolId) :
    (addHostIpSubprotocol memory s address protocolId).2 = s := by
  unfold addHostIpSubprotocol
  split
  · next tree host there =>
    split
    · next node =>
      split
      · next m added =>
        refine absurd ⟨tree, host, there, rfl, node, ?_⟩ old
        rw [added]
        exact Option.some_ne_none m
      · rfl
    · rfl
  · rfl

lemma addHostIp_stored
    (known : protocolId ≠ 0) (new : NewAddress memory s.protocols address protocolId) :
    Grown s (addHostIpSubprotocol memory s address protocolId).2 ∧
      ¬ Grown (addHostIpSubprotocol memory s address protocolId).2 s := by
  obtain ⟨tree, host, there, rfl, node, room⟩ := new
  obtain ⟨m, added⟩ := Option.ne_none_iff_exists'.mp room
  have result : (addHostIpSubprotocol memory s (some host) protocolId).2 =
      { s with protocols := some m.protocols } := by
    unfold addHostIpSubprotocol
    rw [there]
    dsimp only
    rw [if_pos node, added]
  rw [result]
  cases host with
  | v4 address bits port =>
    obtain ⟨after, entered, rfl⟩ := Option.map_eq_some_iff.mp added
    obtain ⟨all, key, more⟩ := load_add known entered
    refine ⟨⟨le_refl _, fun key => ?_, fun key => ?_⟩, fun back => ?_⟩
    · rw [there]
      exact all key
    · rw [there]
      exact le_refl _
    · have less := back.v4 key
      rw [there] at less
      exact absurd less (not_le.mpr more)
  | v6 address bits port =>
    obtain ⟨after, entered, rfl⟩ := Option.map_eq_some_iff.mp added
    obtain ⟨all, key, more⟩ := load_add known entered
    refine ⟨⟨le_refl _, fun key => ?_, fun key => ?_⟩, fun back => ?_⟩
    · rw [there]
      exact le_refl _
    · rw [there]
      exact all key
    · have less := back.v6 key
      rw [there] at less
      exact absurd less (not_le.mpr more)

lemma handleElement_kept (nothing : ¬ Stores env subprotocolId place s attr) :
    (handleElement env subprotocolId category breed place s attr).2.hostAutoma = s.hostAutoma ∧
      (handleElement env subprotocolId category breed place s attr).2.protocols = s.protocols := by
  refine Prod.mk.inj (handleElement_keeps env subprotocolId category breed
    (fun t => (t.hostAutoma, t.protocols)) place s attr (fun _ _ _ => rfl)
    (fun value isIpv6 element => ?_) (fun value element => ?_) (fun _ _ _ => rfl))
  · unfold Stores at nothing
    rw [element] at nothing
    rw [addHostIp_kept nothing]
  · have old : ∀ text, value = some text →
        ¬ NewHost (env.memory place) s.hostAutoma text := by
      intro text same
      unfold Stores at nothing
      rw [element, same] at nothing
      exact nothing
    exact congrArg (·, s.protocols) (stringToAutoma_kept subprotocolId category breed old)

variable {subprotocolId} (known : UInt16.ofNat subprotocolId ≠ 0)

include known in
lemma handleElement_stored (stores : Stores env subprotocolId place s attr) :
    Grown s (handleElement env subprotocolId category breed place s attr).2 ∧
      ¬ Grown (handleElement env subprotocolId category breed place s attr).2 s := by
  unfold Stores at stores
  unfold handleElement
  cases element : parseElement attr with
  | ip value isIpv6 =>
    rw [element] at stores
    exact addHostIp_stored known stores
  | host value =>
    cases value with
    | none =>
      rw [element] at stores
      exact stores.elim
    | some text =>
      rw [element] at stores
      have more := stringToAutoma_stored subprotocolId category breed stores
      refine ⟨⟨le_of_lt more, fun key => le_refl _, fun key => le_refl _⟩, ?_⟩
      exact fun back => not_lt.mpr back.hosts more
  | ports tcp range => rw [element] at stores; exact stores.elim
  | nbpf => rw [element] at stores; exact stores.elim
  | ja4 value => rw [element] at stores; exact stores.elim
  | ndpifp value => rw [element] at stores; exact stores.elim
  | httpUrl value => rw [element] at stores; exact stores.elim

include known in
lemma handleElement_grown (place : Nat) (s : RuleState) (attr : Text) :
    Grown s (handleElement env subprotocolId category breed place s attr).2 := by
  by_cases stores : Stores env subprotocolId place s attr
  · exact (handleElement_stored env category breed known stores).1
  · have kept := handleElement_kept env subprotocolId category breed stores
    exact Grown.of_eq kept.1 kept.2

end

section

variable {env : ElementEnv} {subprotocolId category breed : Nat} {place : Nat}

/-- The elements after one that succeeds. -/
lemma handleElements_cons {elem : Text}
    (done : (handleElement env subprotocolId category breed place s elem).1 = 0) :
    (allTables env).handleElements subprotocolId category breed place s (elem :: rest) =
      (allTables env).handleElements subprotocolId category breed (place + 1)
        (handleElement env subprotocolId category breed place s elem).2 rest := by
  rw [RuleTables.handleElements]
  exact if_pos done

lemma handleElements_stop {elem : Text}
    (failed : (handleElement env subprotocolId category breed place s elem).1 ≠ 0) :
    (allTables env).handleElements subprotocolId category breed place s (elem :: rest) =
      handleElement env subprotocolId category breed place s elem := by
  rw [RuleTables.handleElements]
  exact if_neg failed

variable (env subprotocolId category breed)

lemma handleElements_count (place : Nat) (s : RuleState) (elements : List Text) :
    ((allTables env).handleElements subprotocolId category breed place s
      elements).2.module.numSupportedProtocols = s.module.numSupportedProtocols :=
  UserProtocols.handleElements_related
    (fun s t : RuleState => t.module.numSupportedProtocols = s.module.numSupportedProtocols)
    (fun _ => rfl) (fun first later => later.trans first)
    (fun place s attr => (handleElement_frame env subprotocolId category breed place s attr).1)
    place s elements

variable {subprotocolId} (known : UInt16.ofNat subprotocolId ≠ 0)

include known in
lemma handleElements_grown (place : Nat) (s : RuleState) :
    Grown s ((allTables env).handleElements subprotocolId category breed place s elements).2 :=
  UserProtocols.handleElements_related Grown (fun _ => .of_eq rfl rfl) .trans
    (handleElement_grown env category breed known) place s elements

/-- Whether an element stores something depends on the tables only. -/
lemma stores_congr (hosts : t.hostAutoma = s.hostAutoma) (addresses : t.protocols = s.protocols) :
    Stores env subprotocolId place t attr ↔ Stores env subprotocolId place s attr := by
  unfold Stores
  rw [hosts, addresses]

include known in
/-- The elements of a rule leave the tables as they were exactly if each one that stores
something comes after one that fails. -/
lemma handleElements_kept_iff (place : Nat) (s : RuleState) :
    AsBefore s ((allTables env).handleElements subprotocolId category breed place s elements).2 ↔
      ∀ before elem after, elements = before ++ elem :: after →
        Stores env subprotocolId (place + before.length) s elem →
          ((allTables env).handleElements subprotocolId category breed place s before).1 ≠ 0 := by
  induction elements generalizing place s with
  | nil =>
    refine iff_of_true ⟨rfl, rfl, rfl, rfl, rfl, rfl⟩ fun before elem after shape => ?_
    simp at shape
  | cons first rest ih =>
    obtain ⟨count, mapping, tcpTree, udpTree⟩ :=
      handleElement_frame env subprotocolId category breed place s first
    by_cases stores : Stores env subprotocolId place s first
    · -- something is stored at once, and nothing is ever taken away
      refine iff_of_false (fun same => ?_) fun all => all [] first rest rfl stores rfl
      have grown := handleElement_stored env category breed known stores
      refine grown.2 (Grown.trans ?_ (Grown.of_eq same.hosts.symm same.addresses.symm))
      by_cases done : (handleElement env subprotocolId category breed place s first).1 = 0
      · rw [handleElements_cons done]
        exact handleElements_grown env category breed known _ _
      · rw [handleElements_stop done]
        exact Grown.of_eq rfl rfl
    · obtain ⟨hosts, addresses⟩ := handleElement_kept env subprotocolId category breed stores
      by_cases done : (handleElement env subprotocolId category breed place s first).1 = 0
      · have start : AsBefore s (handleElement env subprotocolId category breed place s first).2 :=
          ⟨count, mapping, tcpTree, udpTree, hosts, addresses⟩
        rw [handleElements_cons done, start.iff, ih]
        constructor
        · intro all before elem after shape stored
          cases before with
          | nil =>
            obtain ⟨rfl, -⟩ := List.cons.inj shape
            exact absurd stored stores
          | cons other before =>
            obtain ⟨rfl, tail⟩ := List.cons.inj shape
            rw [handleElements_cons done]
            refine all before elem after tail ((stores_congr env hosts addresses).mpr ?_)
            rwa [length_cons, ← add_assoc, add_right_comm] at stored
        · intro all before elem after shape stored
          have later := all (first :: before) elem after (congrArg (first :: ·) shape)
          rw [handleElements_cons done] at later
          apply later
          rw [length_cons, ← add_assoc, add_right_comm]
          exact (stores_congr env hosts addresses).mp stored
      · rw [handleElements_stop done]
        refine iff_of_true ⟨count, mapping, tcpTree, udpTree, hosts, addresses⟩ ?_
        intro before elem after shape stored
        cases before with
        | nil =>
          obtain ⟨rfl, -⟩ := List.cons.inj shape
          exact absurd stored stores
        | cons other before =>
          obtain ⟨rfl, -⟩ := List.cons.inj shape
          rwa [handleElements_stop done]

end

section

variable {proto : RuleProtocol}

/-- The registration that fails at the defaults has entered the id already. -/
lemma addUserProtoIdMapping_kept_iff (room : m.numSupportedProtocols < 65535) :
    (addUserProtoIdMapping env.mappingGranted env.fresh m m.numSupportedProtocols
        (assignedId m proto)).ndpiToUserProtoId = m.ndpiToUserProtoId ↔
      MappingKept env m proto := by
  unfold addUserProtoIdMapping MappingKept
  by_cases internal : m.numSupportedProtocols < m.numInternalProtocols
  · rw [if_pos internal]
    exact iff_of_true rfl (.inl internal)
  rw [if_neg internal, or_iff_right internal]
  by_cases beyond : m.numSupportedProtocols - m.numInternalProtocols ≥ m.ndpiToUserProtoId.length
  · rw [if_pos beyond, getElem?_eq_none beyond]
    split
    · next granted =>
      refine iff_of_false (fun same => ?_) (by simp [granted])
      have length := congrArg List.length same
      simp only [length_set, length_map, length_range] at length
      omega
    · next granted =>
      exact iff_of_true rfl (.inl ⟨beyond, Bool.eq_false_iff.mpr granted⟩)
  · rw [if_neg beyond, or_iff_right (fun full => beyond full.1)]
    constructor
    · intro same
      have entry := congrArg (·[m.numSupportedProtocols - m.numInternalProtocols]?) same
      rw [← entry, getElem?_set_self (Nat.lt_of_not_le beyond)]
    · intro entry
      obtain ⟨_, value⟩ := List.getElem?_eq_some_iff.mp entry
      rw [← value]
      exact set_getElem_self _

/-- A rule for a new protocol. -/
lemma new_protocol_kept_iff (new : getProtoByName s.module proto.name = 0) :
    AsBefore s ((allTables env).handleProtocolRule env.rules s elements proto).2 ↔
      65535 ≤ s.module.numSupportedProtocols ∨
        env.rules.defaultsGranted = false ∧ MappingKept env.rules s.module proto := by
  simp only [RuleTables.handleProtocolRule]
  rw [if_pos new]
  obtain ⟨full, failed⟩ | ⟨room, refused, failed⟩ | ⟨room, granted, done, more⟩ :=
    UserProtocols.registerProtocol_outcomes
  · rw [failed]
    exact iff_of_true ⟨rfl, rfl, rfl, rfl, rfl, rfl⟩ (.inl full)
  · have others := (UserProtocols.addUserProtoIdMapping_others env.rules.mappingGranted
      env.rules.fresh s.module s.module.numSupportedProtocols (assignedId s.module proto)).2
    rw [failed, or_iff_right (not_le.mpr room), and_iff_right refused,
      ← addUserProtoIdMapping_kept_iff room]
    exact ⟨fun same => same.mapping,
      fun same => ⟨congrArg List.length others, same, rfl, rfl, rfl, rfl⟩⟩
  · -- the protocol stays registered, whatever becomes of the elements
    rw [if_neg (not_not.mpr done)]
    refine iff_of_false (fun same => ?_) fun kept => ?_
    · have count := same.count
      rw [handleElements_count] at count
      have length := congrArg List.length more
      rw [length_append, length_singleton] at length
      exact absurd (length.symm.trans count) (Nat.succ_ne_self _)
    · obtain full | ⟨refused, -⟩ := kept
      · omega
      · rw [granted] at refused
        cases refused

/-- A rule for a known one. -/
lemma known_protocol_kept_iff (env : ElementEnv)
    (known : getProtoByName s.module proto.name ≠ 0) :
    AsBefore s ((allTables env).handleProtocolRule env.rules s elements proto).2 ↔
      ∀ before elem after, elements = before ++ elem :: after →
        Stores env (getProtoByName s.module proto.name) before.length s elem →
          ((allTables env).handleElements (getProtoByName s.module proto.name)
            (knownDefaults s.module (getProtoByName s.module proto.name) proto).1
            (knownDefaults s.module (getProtoByName s.module proto.name) proto).2 0 s before).1 ≠
              0 := by
  have id : UInt16.ofNat (getProtoByName s.module proto.name) ≠ 0 := by
    intro zero
    have value := congrArg UInt16.toNat zero
    have bound := (UserProtocols.getProtoByName_bound s.module proto.name).resolve_left known
    rw [UInt16.toNat_ofNat', Nat.mod_eq_of_lt (lt_trans bound.1 (wrap16_lt _))] at value
    exact known value
  simp only [RuleTables.handleProtocolRule]
  rw [if_neg known, handleElements_kept_iff env _ _ id]
  simp

/-- A rule, and so each one that fails, leaves the protocols, the ids, the trees of ports
and the tables of hosts and addresses as they were exactly if it stores nothing before
it fails. -/
theorem rule_keeps_iff (env : ElementEnv) (s : RuleState) (rule : Text) :
    AsBefore s (handleRule env s rule).2 ↔ Kept env s rule := by
  unfold handleRule RuleTables.handleRule Kept
  cases parts : splitAtLast '@' rule with
  | none => exact iff_of_true ⟨rfl, rfl, rfl, rfl, rfl, rfl⟩ (by simp)
  | some both =>
    obtain ⟨elements, text⟩ := both
    have only : ∀ {property : Text → RuleProtocol → Prop},
        (∀ elements' text' proto, some (elements, text) = some (elements', text') →
          parseProtocol s.module.numSupportedProtocols text' = .ok proto →
            property elements' proto) ↔
          ∀ proto, parseProtocol s.module.numSupportedProtocols text = .ok proto →
            property elements proto := by
      intro property
      refine ⟨fun all proto parsed => all elements text proto rfl parsed,
        fun all elements' text' proto same parsed => ?_⟩
      cases same
      exact all proto parsed
    rw [only]
    dsimp only
    cases parsed : parseProtocol s.module.numSupportedProtocols text with
    | error message => exact iff_of_true ⟨rfl, rfl, rfl, rfl, rfl, rfl⟩ (by simp)
    | ok proto =>
      by_cases known : getProtoByName s.module proto.name = 0
      · rw [new_protocol_kept_iff known]
        constructor
        · intro kept other same
          cases same
          exact ⟨fun _ => kept, fun differs => absurd known differs⟩
        · exact fun all => (all proto rfl).1 known
      · rw [known_protocol_kept_iff env known]
        constructor
        · intro kept other same
          cases same
          exact ⟨fun new => absurd new known, fun _ => kept⟩
        · exact fun all => (all proto rfl).2 known

/-- Enough memory, and no address that can be read. -/
def sampleEnv : ElementEnv :=
  ⟨⟨fun _ => -1, fun _ _ _ _ => 0, true, true, fun _ => 0⟩, fun _ _ => none, fun _ => none,
    fun _ => ⟨true, true, true, true, true, true, true, true⟩⟩

/-- Two internal protocols, the second with the name `h`. -/
def sampleState : RuleState :=
  ⟨⟨2, [⟨['u'], false, 0, 0, noPorts, noPorts⟩, ⟨['h'], false, 0, 0, noPorts, noPorts⟩], []⟩,
    some ⟨true, []⟩, none, none, none, none, 0, .nil, .nil⟩

/-- `nbpf:@p` fails and leaves the protocol `p`; `host:x,nbpf:@h` fails and leaves the host
`x`. -/
theorem half_done_rules :
    ((handleRule sampleEnv sampleState ['n', 'b', 'p', 'f', ':', '@', 'p']).1 = -6 ∧
      (handleRule sampleEnv sampleState
        ['n', 'b', 'p', 'f', ':', '@', 'p']).2.module.numSupportedProtocols = 3 ∧
      sampleState.module.numSupportedProtocols = 2) ∧
    (handleRule sampleEnv sampleState
        ['h', 'o', 's', 't', ':', 'x', ',', 'n', 'b', 'p', 'f', ':', '@', 'h']).1 = -6 ∧
      (handleRule sampleEnv sampleState
        ['h', 'o', 's', 't', ':', 'x', ',', 'n', 'b', 'p', 'f', ':', '@', 'h']).2.hostAutoma ≠
          sampleState.hostAutoma := by
  decide +kernel

end

end Ndpi.Guarantees.RuleAtomicity
