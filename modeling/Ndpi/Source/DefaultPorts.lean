import Ndpi.Lib.SearchTree

/-!
# Default ports

`ndpi_utils.c:133-161,239-256` and `ndpi_main.c:652-674,757-810,5282-5306`: the
tree of default ports, one per transport, how ranges of ports are loaded into it
and how a protocol is guessed from the ports of a flow.
-/
namespace Ndpi.Source.DefaultPorts
open Lib

/-- What a call of `ndpi_tsearch` returns: the datum that was there, the one just
linked into the tree, or NULL. -/
inductive Searched (α : Type) where
  | found (datum : α)
  | linked
  | noMemory

/-- `ndpi_tsearch`; `granted` tells whether a new node can be allocated. -/
def tsearch {α : Type} (compar : α → α → Int) (granted : Bool) (key : α) :
    SearchTree α → Searched α × SearchTree α
  | .nil => if granted then (.linked, .node key .nil .nil) else (.noMemory, .nil)
  | .node here left right =>
    if compar key here = 0 then (.found here, .node here left right)
    else if compar key here < 0 then
      let (ret, left) := tsearch compar granted key left
      (ret, .node here left right)
    else
      let (ret, right) := tsearch compar granted key right
      (ret, .node here left right)

/-- `ndpi_tfind`. -/
def tfind {α : Type} (compar : α → α → Int) (key : α) (root : SearchTree α) : Option α :=
  root.find compar key

/-- `default_ports_tree_node_t`. -/
structure DefaultPortsNode where
  protoIdx : UInt16
  customUserProto : UInt8
  defaultPort : UInt16
  deriving DecidableEq, Repr

/-- `default_ports_tree_node_t_cmp`. -/
def nodeCmp (a b : DefaultPortsNode) : Int :=
  if a.defaultPort = b.defaultPort then 0 else if a.defaultPort < b.defaultPort then -1 else 1

/-- `ndpi_port_range`. -/
structure PortRange where
  portLow : UInt16
  portHigh : UInt16
  isCustom : UInt8
  deriving DecidableEq, Repr

abbrev PortTree := SearchTree DefaultPortsNode

/-- The ports of a range, in the order of the loop. -/
def PortRange.ports (range : PortRange) : List Nat :=
  List.range' range.portLow.toNat (range.portHigh.toNat + 1 - range.portLow.toNat)

/-- Whether the record and the tree node of a port can be allocated. -/
structure PortAllocator where
  record : Nat → Bool
  link : Nat → Bool

/-- `ret->customUserProto |= ..., ret->proto_idx = proto_idx`. -/
def DefaultPortsNode.overwrite (protoIdx : UInt16) (customUserProto : UInt8)
    (ret : DefaultPortsNode) : DefaultPortsNode :=
  ⟨protoIdx, ret.customUserProto ||| customUserProto, ret.defaultPort⟩

/-- The loop of `addDefaultPort`. A port that is already there is overwritten and
ends the loop. -/
def addPorts (alloc : PortAllocator) (protoIdx : UInt16) (customUserProto : UInt8) :
    List Nat → PortTree → Int × PortTree
  | [], root => (0, root)
  | port :: rest, root =>
    if alloc.record port = false then (0, root)
    else
      let node : DefaultPortsNode := ⟨protoIdx, customUserProto, UInt16.ofNat port⟩
      match tsearch nodeCmp (alloc.link port) node root with
      | (.noMemory, root) => (0, root)
      | (.linked, root) => addPorts alloc protoIdx customUserProto rest root
      | (.found _, root) => (-1, root.modify nodeCmp node (.overwrite protoIdx customUserProto))

/-- `addDefaultPort`. -/
def addDefaultPort (alloc : PortAllocator) (range : PortRange) (protoIdx : UInt16)
    (customUserProto : UInt8) (root : PortTree) : Int × PortTree :=
  addPorts alloc protoIdx (customUserProto ||| range.isCustom) range.ports root

/-- The fields of `ndpi_proto_defaults_t` that loading reads, and the result of
`is_proto_enabled`. -/
structure ProtoPorts where
  enabled : Bool
  isCustomProto : UInt8
  tcpDefaultPorts : Vector PortRange 5
  udpDefaultPorts : Vector PortRange 5

structure PortRoots where
  udpRoot : PortTree
  tcpRoot : PortTree

/-- One round of the inner loop of `load_default_ports`. -/
def loadPortsAt (alloc : PortAllocator) (protoId : UInt16) (proto : ProtoPorts) (roots : PortRoots)
    (j : Fin 5) : PortRoots where
  udpRoot :=
    if (proto.udpDefaultPorts.get j).portLow ≠ 0 then
      (addDefaultPort alloc (proto.udpDefaultPorts.get j) protoId proto.isCustomProto
        roots.udpRoot).2
    else roots.udpRoot
  tcpRoot :=
    if (proto.tcpDefaultPorts.get j).portLow ≠ 0 then
      (addDefaultPort alloc (proto.tcpDefaultPorts.get j) protoId proto.isCustomProto
        roots.tcpRoot).2
    else roots.tcpRoot

/-- `load_default_ports`, over the protocols from `protoId` on. -/
def loadDefaultPorts (alloc : PortAllocator) : List ProtoPorts → Nat → PortRoots → PortRoots
  | [], _, roots => roots
  | proto :: rest, protoId, roots =>
    let roots :=
      if proto.enabled then
        (List.finRange 5).foldl (loadPortsAt alloc (UInt16.ofNat protoId) proto) roots
      else roots
    loadDefaultPorts alloc rest (protoId + 1) roots

/-- The lookup of a port in `ndpi_get_guessed_protocol_id`. -/
def lookupPort (root : PortTree) (port : UInt16) : Option DefaultPortsNode :=
  tfind nodeCmp ⟨0, 0, port⟩ root

/-- `ndpi_get_guessed_protocol_id`; `root` is the tree of the transport. -/
def getGuessedProtocolId (useSport : Bool) (root : PortTree) (sport dport : UInt16) :
    Option DefaultPortsNode :=
  if sport ≠ 0 ∧ dport ≠ 0 then
    match lookupPort root dport with
    | some node => some node
    | none => if useSport then lookupPort root sport else none
  else none

end Ndpi.Source.DefaultPorts
