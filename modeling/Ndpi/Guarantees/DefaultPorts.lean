import Ndpi.Lib.LastWrite
import Ndpi.Lib.Run
import Ndpi.Source.DefaultPorts

/-!
# The protocol of a default port

Loading a range stops at the first of its ports that is already in the tree. So a
lookup gives the protocol of the last range that covers a port as long as a range
meets only ports it could leave alone: its last one, or those that already have
its protocol.
-/
namespace Ndpi.Guarantees.DefaultPorts
open Lib Source.DefaultPorts

lemma nodeCmp_compares :
    SearchTree.Compares nodeCmp fun node : DefaultPortsNode => node.defaultPort.toNat where
  zero_iff := by
    intro a b
    unfold nodeCmp
    rw [UInt16.toNat_inj]
    split
    · next same => simp [same]
    · next differ => split <;> simp [differ]
  neg_iff := by
    intro a b
    unfold nodeCmp
    rw [← UInt16.lt_iff_toNat_lt]
    split
    · next same => simp [same]
    · split
      · next below => simp [below]
      · next above => simp [above]

/-- `ndpi_tsearch` finds, or links a new leaf. -/
lemma tsearch_eq (compar : α → α → Int) (key : α) (root : SearchTree α) :
    tsearch compar true key root =
      match root.find compar key with
      | some datum => (.found datum, root)
      | none => (.linked, root.insert compar key) := by
  induction root with
  | nil => rfl
  | node here left right ihLeft ihRight =>
    simp only [tsearch, SearchTree.find, SearchTree.insert]
    split
    · rfl
    · split
      · rw [ihLeft]
        cases left.find compar key <;> rfl
      · rw [ihRight]
        cases right.find compar key <;> rfl

/-- The protocol a lookup of a port gives. -/
def lookupProto (root : PortTree) (port : UInt16) : Option UInt16 :=
  (lookupPort root port).map DefaultPortsNode.protoIdx

variable (root : PortTree) (protoIdx : UInt16) (loads : List Load)

lemma lookupPort_eq (node : DefaultPortsNode) :
    lookupPort root node.defaultPort = root.find nodeCmp node := by
  have samePort : (⟨0, 0, node.defaultPort⟩ : DefaultPortsNode).defaultPort.toNat =
    node.defaultPort.toNat := rfl
  exact SearchTree.find_congr nodeCmp_compares samePort root

/-- An allocator that grants every request. -/
def granting : PortAllocator := ⟨fun _ => true, fun _ => true⟩

/-- A lookup in a tree with one more port. -/
lemma lookupPort_insert {root : PortTree}
    (absent : root.find nodeCmp node = none) (port : UInt16) :
    lookupPort (root.insert nodeCmp node) port =
      if port = node.defaultPort then some node else lookupPort root port := by
  have found := SearchTree.find_insert nodeCmp_compares absent ⟨0, 0, port⟩
  simp only [UInt16.toNat_inj] at found
  exact found

lemma lookupPort_overwrite (root : PortTree) :
    lookupPort (root.modify nodeCmp node (.overwrite protoIdx customUserProto)) port =
      if port = node.defaultPort then
        (lookupPort root port).map (.overwrite protoIdx customUserProto)
      else lookupPort root port := by
  have keeps (ret : DefaultPortsNode) :
    (ret.overwrite protoIdx customUserProto).defaultPort.toNat = ret.defaultPort.toNat := rfl
  have found := SearchTree.find_modify nodeCmp_compares keeps node ⟨0, 0, port⟩ root
  simp only [UInt16.toNat_inj] at found
  exact found

/-- One round of the loop, with every allocation granted. -/
lemma addPorts_cons (root : PortTree) :
    let node : DefaultPortsNode := ⟨protoIdx, customUserProto, UInt16.ofNat port⟩
    addPorts granting protoIdx customUserProto (port :: rest) root =
      match root.find nodeCmp node with
      | some _ => (-1, root.modify nodeCmp node (.overwrite protoIdx customUserProto))
      | none => addPorts granting protoIdx customUserProto rest (root.insert nodeCmp node) := by
  intro node
  have record : granting.record port = true := rfl
  have link : granting.link port = true := rfl
  simp only [addPorts, record, link, Bool.true_eq_false, if_false, tsearch_eq]
  cases root.find nodeCmp node <;> rfl

/-- No port before `port` that is to be loaded is in the tree. -/
def FreeBefore (root : PortTree) (loaded : UInt16 → Prop) (port : UInt16) : Prop :=
  ∀ earlier, loaded earlier → earlier < port → lookupPort root earlier = none

open scoped Classical in
/-- Loading consecutive ports gives them the protocol, up to and including the
first that was there before. -/
lemma addPorts_lookup (customUserProto : UInt8) (low count : Nat) (small : low + count ≤ 65536)
    (root : PortTree) (port : UInt16) :
    lookupProto (addPorts granting protoIdx customUserProto (List.range' low count) root).2 port =
      if low ≤ port.toNat ∧ port.toNat < low + count ∧
        FreeBefore root (low ≤ ·.toNat) port
      then some protoIdx else lookupProto root port := by
  induction count generalizing low root with
  | zero =>
    rw [if_neg (fun inside => absurd inside.2.1 (by omega))]
    rfl
  | succ count ih =>
    have here : (UInt16.ofNat low).toNat = low := UInt16.toNat_ofNat_of_lt' (by
      show low < 65536
      omega)
    rw [List.range'_succ, addPorts_cons]
    generalize hnode : (⟨protoIdx, customUserProto, UInt16.ofNat low⟩ : DefaultPortsNode) = node
    have nodePort : node.defaultPort = UInt16.ofNat low := by rw [← hnode]
    have isLow (port : UInt16) : port = node.defaultPort ↔ port.toNat = low := by
      rw [nodePort, ← UInt16.toNat_inj, here]
    have lookupHere := lookupPort_eq root node
    cases present : root.find nodeCmp node with
    | some datum =>
      -- The port is there: only its own entry changes, and it blocks the rest.
      rw [present, nodePort] at lookupHere
      simp only [lookupProto]
      rw [lookupPort_overwrite]
      by_cases same : port.toNat = low
      · have samePort := (isLow port).mpr same
        rw [if_pos samePort, samePort, nodePort, lookupHere, if_pos]
        · rfl
        · refine ⟨by omega, by omega, ?_⟩
          intro earlier above below
          rw [UInt16.lt_iff_toNat_lt] at below
          omega
      · rw [if_neg (mt (isLow port).mp same), if_neg]
        rintro ⟨above, -, free⟩
        have absent := free (UInt16.ofNat low) (by omega)
          (UInt16.lt_iff_toNat_lt.mpr (by omega))
        rw [lookupHere] at absent
        cases absent
    | none =>
      simp only
      have inserted := lookupPort_insert present
      rw [ih (low + 1) (by omega) (root.insert nodeCmp node)]
      by_cases same : port.toNat = low
      · have first : FreeBefore root (low ≤ ·.toNat) port := by
          intro earlier above below
          rw [UInt16.lt_iff_toNat_lt] at below
          omega
        rw [if_neg (by omega), if_pos ⟨by omega, by omega, first⟩, lookupProto, inserted,
          if_pos ((isLow port).mpr same), ← hnode]
        rfl
      · have unchanged : lookupProto (root.insert nodeCmp node) port = lookupProto root port := by
          rw [lookupProto, inserted, if_neg (mt (isLow port).mp same), lookupProto]
        rw [unchanged]
        have sameCondition : (low + 1 ≤ port.toNat ∧ port.toNat < low + 1 + count ∧
            FreeBefore (root.insert nodeCmp node) (low + 1 ≤ ·.toNat) port) ↔
            (low ≤ port.toNat ∧ port.toNat < low + (count + 1) ∧
            FreeBefore root (low ≤ ·.toNat) port) := by
          constructor
          · rintro ⟨above, below, free⟩
            refine ⟨by omega, by omega, ?_⟩
            intro earlier atLeast before
            by_cases first : earlier.toNat = low
            · rw [(isLow earlier).mpr first, lookupHere, present]
            · have absent := free earlier (by omega) before
              rwa [inserted, if_neg (mt (isLow earlier).mp first)] at absent
          · rintro ⟨above, below, free⟩
            refine ⟨by omega, by omega, ?_⟩
            intro earlier atLeast before
            rw [inserted, if_neg (mt (isLow earlier).mp (by omega))]
            exact free earlier (by omega) before
        simp only [sameCondition]

/-- A call of `addDefaultPort` on the tree of a transport. -/
structure Load where
  range : PortRange
  protoIdx : UInt16
  customUserProto : UInt8
  deriving DecidableEq, Repr

def Load.Covers (load : Load) (port : UInt16) : Prop :=
  load.range.portLow ≤ port ∧ port ≤ load.range.portHigh

instance (load : Load) (port : UInt16) : Decidable (load.Covers port) :=
  inferInstanceAs (Decidable (_ ∧ _))

def loadStep (root : PortTree) (load : Load) : PortTree :=
  (addDefaultPort granting load.range load.protoIdx load.customUserProto root).2

/-- The tree after a sequence of loads. -/
def loadAll (loads : List Load) : PortTree := run loadStep .nil loads

/-- The protocol of the last load that covers a port. -/
def lastLoaded (loads : List Load) (port : UInt16) : Option UInt16 :=
  lastWrite (fun load => if load.Covers port then some load.protoIdx else none) loads

/-- Every covered port is looked up as the protocol loaded for it last. -/
def LooksUpLast (loads : List Load) : Prop :=
  ∀ port proto, lastLoaded loads port = some proto → lookupProto (loadAll loads) port = some proto

/-- No port of the range lies behind one that is already covered, except ports
that were last loaded with the same protocol. -/
def Unhindered (before : List Load) (load : Load) : Prop :=
  ∀ earlier port, load.Covers earlier → load.Covers port → earlier < port →
    lastLoaded before earlier ≠ none → lastLoaded before port = some load.protoIdx

open scoped Classical in
lemma loadStep_lookup :
    lookupProto (loadStep root load) port =
      if load.Covers port ∧ FreeBefore root load.Covers port then some load.protoIdx
      else lookupProto root port := by
  have low := load.range.portLow.toNat_lt
  have high := load.range.portHigh.toNat_lt
  have added := addPorts_lookup load.protoIdx (load.customUserProto ||| load.range.isCustom)
    load.range.portLow.toNat (load.range.portHigh.toNat + 1 - load.range.portLow.toNat)
    (by omega) root port
  have sameCondition : (load.range.portLow.toNat ≤ port.toNat ∧
      port.toNat < load.range.portLow.toNat +
        (load.range.portHigh.toNat + 1 - load.range.portLow.toNat) ∧
      FreeBefore root (load.range.portLow.toNat ≤ ·.toNat) port) ↔
      (load.Covers port ∧ FreeBefore root load.Covers port) := by
    simp only [FreeBefore, Load.Covers, UInt16.le_iff_toNat_le, UInt16.lt_iff_toNat_lt]
    constructor
    · rintro ⟨above, below, free⟩
      exact ⟨⟨above, by omega⟩, fun earlier covered before => free earlier covered.1 before⟩
    · rintro ⟨⟨above, below⟩, free⟩
      exact ⟨above, by omega, fun earlier atLeast before =>
        free earlier ⟨atLeast, by omega⟩ before⟩
  simp only [sameCondition] at added
  exact added

/-- The load `load_default_ports` makes for one entry of a protocol, if any. -/
def entryLoads (protoId : UInt16) (custom : UInt8) (range : PortRange) : List Load :=
  if range.portLow ≠ 0 then [⟨range, protoId, custom⟩] else []

/-- The loads `load_default_ports` makes for one transport. -/
def portLoads (select : ProtoPorts → Vector PortRange 5) : List ProtoPorts → Nat → List Load
  | [], _ => []
  | proto :: rest, protoId =>
    (if proto.enabled then
      (List.finRange 5).flatMap fun j =>
        entryLoads (UInt16.ofNat protoId) proto.isCustomProto ((select proto).get j)
    else []) ++ portLoads select rest (protoId + 1)

open List Option

lemma run_entryLoads (range : PortRange) :
    run loadStep root (entryLoads protoId custom range) =
      if range.portLow ≠ 0 then (addDefaultPort granting range protoId custom root).2 else root := by
  unfold entryLoads
  split <;> rfl

/-- The inner loop of `load_default_ports` over any of its indices. -/
lemma loadPortsAt_roots (protoId : UInt16) (proto : ProtoPorts) (indices : List (Fin 5))
    (roots : PortRoots) :
    indices.foldl (loadPortsAt granting protoId proto) roots =
      { udpRoot := run loadStep roots.udpRoot (indices.flatMap fun j =>
          entryLoads protoId proto.isCustomProto (proto.udpDefaultPorts.get j))
        tcpRoot := run loadStep roots.tcpRoot (indices.flatMap fun j =>
          entryLoads protoId proto.isCustomProto (proto.tcpDefaultPorts.get j)) } := by
  induction indices generalizing roots with
  | nil => rfl
  | cons j rest ih =>
    rw [foldl_cons, ih, flatMap_cons, flatMap_cons, run_append, run_append,
      run_entryLoads, run_entryLoads]
    rfl

/-- `load_default_ports` is a sequence of loads on each of the trees. -/
lemma loadDefaultPorts_roots (protos : List ProtoPorts) (protoId : Nat) (roots : PortRoots) :
    loadDefaultPorts granting protos protoId roots =
      { udpRoot := run loadStep roots.udpRoot (portLoads (·.udpDefaultPorts) protos protoId)
        tcpRoot := run loadStep roots.tcpRoot (portLoads (·.tcpDefaultPorts) protos protoId) } := by
  induction protos generalizing protoId roots with
  | nil => rfl
  | cons proto rest ih =>
    rw [loadDefaultPorts, ih, portLoads, portLoads, run_append, run_append]
    split
    · rw [loadPortsAt_roots]
    · rfl

lemma lastLoaded_concat :
    lastLoaded (loads ++ [load]) port =
      if load.Covers port then some load.protoIdx else lastLoaded loads port := by
  rw [lastLoaded, lastWrite_concat]
  split
  · rfl
  · rfl

lemma loadAll_concat :
    loadAll (loads ++ [load]) = loadStep (loadAll loads) load := run_concat loadStep .nil loads load

/-- The tree holds covered ports only. -/
lemma loadAll_covered (found : lookupProto (loadAll loads) port ≠ none) :
    lastLoaded loads port ≠ none := by
  induction loads using List.reverseRecOn with
  | nil => exact absurd rfl found
  | append_singleton loads load ih =>
    rw [lastLoaded_concat]
    rw [loadAll_concat, loadStep_lookup] at found
    split
    · exact some_ne_none _
    · next outside =>
      rw [if_neg fun reached => outside reached.1] at found
      exact ih found

lemma lookupPort_none_iff :
    lookupPort root port = none ↔ lookupProto root port = none := by
  rw [lookupProto, map_eq_none_iff]

/-- Where lookups are right, a port is in the tree exactly if it is covered. -/
lemma LooksUpLast.present_iff {loads : List Load} (right : LooksUpLast loads) (port : UInt16) :
    lookupPort (loadAll loads) port = none ↔ lastLoaded loads port = none := by
  rw [lookupPort_none_iff]
  constructor
  · intro absent
    cases covered : lastLoaded loads port with
    | none => rfl
    | some proto =>
      rw [right port proto covered] at absent
      cases absent
  · intro uncovered
    by_contra found
    exact loadAll_covered loads found uncovered

/-- One more load keeps the lookups right exactly if it is not hindered. -/
lemma LooksUpLast.concat_iff {loads : List Load} (right : LooksUpLast loads) (load : Load) :
    LooksUpLast (loads ++ [load]) ↔ Unhindered loads load := by
  constructor
  · intro after earlier port coversEarlier coversPort before covered
    have last : lastLoaded (loads ++ [load]) port = some load.protoIdx := by
      rw [lastLoaded_concat, if_pos coversPort]
    have found := after port load.protoIdx last
    rw [loadAll_concat, loadStep_lookup, if_neg] at found
    · have present : lastLoaded loads port ≠ none := by
        apply loadAll_covered loads
        rw [found]
        exact some_ne_none _
      obtain ⟨proto, loaded⟩ := ne_none_iff_exists'.mp present
      rw [right port proto loaded] at found
      rw [loaded, found]
    · rintro ⟨-, free⟩
      exact covered ((right.present_iff earlier).mp (free earlier coversEarlier before))
  · intro unhindered port proto last
    rw [lastLoaded_concat] at last
    rw [loadAll_concat, loadStep_lookup]
    split at last
    · next coversPort =>
      cases last
      split
      · rfl
      · next blocked =>
        unfold FreeBefore at blocked
        push Not at blocked
        obtain ⟨earlier, coversEarlier, before, present⟩ := blocked coversPort
        have covered := mt (right.present_iff earlier).mpr present
        exact right port _ (unhindered earlier port coversEarlier coversPort before covered)
    · next outside =>
      rw [if_neg fun reached => outside reached.1]
      exact right port proto last

/-- After every load of a sequence the covered ports are looked up as what was
loaded for them last, exactly if no load of the sequence is hindered by the ones
before it. -/
theorem default_ports_last_loaded_iff (loads : List Load) :
    (∀ before, before <+: loads → LooksUpLast before) ↔
      ∀ before load, before ++ [load] <+: loads → Unhindered before load := by
  have empty : LooksUpLast [] := by
    intro port proto covered
    cases covered
  have iff := @throughout_iff_everyStep _ _ (fun log load => log ++ [load]) Unhindered [] loads
    (fun _ => True) LooksUpLast ⟨trivial, empty⟩ (fun _ _ _ => trivial)
    fun log load _ right => right.concat_iff load
  simpa [Throughout, EveryStep, run_log] using iff

/-- The range 10-12 loaded for protocol 1 and then for protocol 2: port 11 stays
with protocol 1. -/
theorem default_ports_overlap_lost :
    let loads : List Load := [⟨⟨10, 12, 0⟩, 1, 0⟩, ⟨⟨10, 12, 0⟩, 2, 0⟩]
    lastLoaded loads 11 = some 2 ∧ lookupProto (loadAll loads) 11 = some 1 := by
  decide +kernel

/-- A port is looked up only as a protocol that was loaded for it. -/
lemma loadAll_loaded : ∀ proto ∈ lookupProto (loadAll loads) port,
    ∃ load ∈ loads, load.protoIdx = proto ∧ load.Covers port := by
  induction loads using List.reverseRecOn with
  | nil => exact nofun
  | append_singleton loads load ih =>
    rw [loadAll_concat, loadStep_lookup]
    grind

/-- A flow is only guessed to be of a protocol that was loaded for a port of it. -/
theorem guessed_protocol_loaded (useSport : Bool) (sport dport : UInt16) :
    (getGuessedProtocolId useSport (loadAll loads) sport dport).all fun node => loads.any fun load =>
      load.protoIdx = node.protoIdx ∧ (load.Covers dport ∨ useSport ∧ load.Covers sport) := by
  have loaded := @loadAll_loaded loads
  simp [lookupProto] at loaded
  rw [Option.all_eq_true]
  grind [getGuessedProtocolId]

end Ndpi.Guarantees.DefaultPorts
