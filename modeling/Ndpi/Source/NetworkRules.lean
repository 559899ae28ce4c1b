import Ndpi.Lib.PrefixMap

/-!
# Protocols by network and port

`ndpi_main.c:3176-3202,3253-3419,3462-3477,3806-3866` and
`ndpi_patricia_typedefs.h:50-63`: the two patricia trees of networks, the rules that
fill them, and the lookups of a host in them. A tree is the map from prefixes it
stands for; the text of a rule is taken apart by others. Addresses are in host byte
order, most significant bit first, ports in network byte order where the source has
them so.
-/
namespace Ndpi.Source.NetworkRules
open Lib

/-- `struct patricia_uv16`: a protocol and a port. -/
structure Uv16 where
  userValue : UInt16 := 0
  additionalUserValue : UInt16 := 0
  deriving DecidableEq, Repr

abbrev uv16MaxUserValues : Nat := 2

/-- The fields of `ndpi_patricia_node_t` that the rules use. `data` is the linked
list, from the head on. -/
structure Node where
  uv16 : Vector Uv16 uv16MaxUserValues
  data : List Uv16
  deriving DecidableEq, Repr

/-- A node as `ndpi_patricia_lookup` makes it. -/
def Node.new : Node := ⟨Vector.replicate _ {}, []⟩

structure PatriciaTree (maxbits : Nat) where
  nodes : PrefixMap Node

def PatriciaTree.maxbits {maxbits : Nat} (_ : PatriciaTree maxbits) : Nat := maxbits

/-- The two trees as `ndpi_ptree_create` makes them. -/
structure Ptree where
  v4 : PatriciaTree 32 := ⟨.empty⟩
  v6 : PatriciaTree 128 := ⟨.empty⟩

/-- The fields of `ndpi_detection_module_struct` that the lookups read. -/
structure Module where
  numCustomProtocols : Nat
  protocols : Ptree := {}

/-- The bits of an address from the first on. -/
def bitsOf {width : Nat} (address : BitVec width) : List Bool :=
  (List.range width).map address.getMsbD

/-- `ndpi_fill_prefix_v4` and `ndpi_fill_prefix_v6`, whose return values the callers
ignore: a length that the tree does not take leaves the prefix of no bits. -/
def fillPrefix {width : Nat} (address : BitVec width) (bits maxbits : Nat) : List Bool :=
  if bits > maxbits then [] else (bitsOf address).take bits

def htons (x : UInt16) : UInt16 := UInt16.ofNat (x.toNat % 256 * 256 + x.toNat / 256)

/-- `ndpi_is_public_ipv4`. -/
def isPublicIpv4 (a : BitVec 32) : Bool :=
  !(a &&& 0xFF000000 == 0x0A000000 || a &&& 0xFFF00000 == 0xAC100000 ||
    a &&& 0xFFFF0000 == 0xC0A80000 || a &&& 0xFF000000 == 0x7F000000 ||
    a &&& 0xF0000000 == 0xE0000000)

/-- The part of `ndpi_add_host_ip_subprotocol` that stores a rule in its node: the
first slot without a protocol, or else the head of the list, if there is memory
for it. -/
def storeRule (granted : Bool) (protocolId port : UInt16) (node : Node) : Option Node :=
  let value : Uv16 := ⟨protocolId, htons port⟩
  match (List.finRange uv16MaxUserValues).find? fun i => node.uv16[i].userValue == 0 with
  | some i => some { node with uv16 := node.uv16.set i value }
  | none => if granted then some { node with data := value :: node.data } else none

/-- An address, a number of its bits that the tree of its family takes, a port or
0, and a protocol. -/
inductive HostRule where
  | v4 (address : BitVec 32) (bits : Fin 33) (port protocolId : UInt16)
  | v6 (address : BitVec 128) (bits : Fin 129) (port protocolId : UInt16)
  deriving DecidableEq

/-- `add_to_ptree`, and the rule stored in the node it returns. -/
def PatriciaTree.add {width maxbits : Nat} (tree : PatriciaTree maxbits) (granted : Bool)
    (address : BitVec width) (bits : Nat) (port protocolId : UInt16) :
    Option (PatriciaTree maxbits) :=
  let key := fillPrefix address bits tree.maxbits
  (storeRule granted protocolId port ((tree.nodes key).getD .new)).map fun node =>
    ⟨tree.nodes.alter key fun _ => node⟩

/-- `ndpi_add_host_ip_subprotocol` from where the text of the rule is read;
`none` is its return value -1. -/
def addHostIpSubprotocol (granted : Bool) (m : Module) : HostRule → Option Module
  | .v4 address bits port protocolId =>
    (m.protocols.v4.add granted address bits port protocolId).map fun tree =>
      { m with protocols.v4 := tree }
  | .v6 address bits port protocolId =>
    (m.protocols.v6.add granted address bits port protocolId).map fun tree =>
      { m with protocols.v6 := tree }

/-- What `ndpi_network_port_ptree_match` and its IPv6 twin do with the node. -/
def Node.protocolAt (node : Node) (port : UInt16) : UInt16 :=
  match node.uv16.toList.find? fun v => v.additionalUserValue == 0 || v.additionalUserValue == port with
  | some v => v.userValue
  | none =>
    match node.data.find? (·.additionalUserValue == port) with
    | some v => v.userValue
    | none => 0

/-- `ndpi_network_ptree_match`. -/
def networkPtreeMatch (m : Module) (pin : BitVec 32) : UInt16 :=
  if m.numCustomProtocols == 0 && !isPublicIpv4 pin then 0
  else
    match m.protocols.v4.nodes.best (fillPrefix pin 32 m.protocols.v4.maxbits) with
    | some node => node.uv16[0].userValue
    | none => 0

/-- `ndpi_network_ptree6_match`, which asks the IPv4 tree. -/
def networkPtree6Match (m : Module) (pin : BitVec 128) : UInt16 :=
  match m.protocols.v4.nodes.best (fillPrefix pin 128 m.protocols.v4.maxbits) with
  | some node => node.uv16[0].userValue
  | none => 0

/-- `ndpi_network_port_ptree_match`. -/
def networkPortPtreeMatch (m : Module) (pin : BitVec 32) (port : UInt16) : UInt16 :=
  if m.numCustomProtocols == 0 && !isPublicIpv4 pin then 0
  else
    match m.protocols.v4.nodes.best (fillPrefix pin 32 m.protocols.v4.maxbits) with
    | some node => node.protocolAt port
    | none => 0

/-- `ndpi_network_port_ptree6_match`. -/
def networkPortPtree6Match (m : Module) (pin : BitVec 128) (port : UInt16) : UInt16 :=
  match m.protocols.v6.nodes.best (fillPrefix pin 128 m.protocols.v6.maxbits) with
  | some node => node.protocolAt port
  | none => 0

end Ndpi.Source.NetworkRules
