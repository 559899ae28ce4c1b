import Ndpi.Source.CustomRules
import Ndpi.Source.NetworkRules

/-!
# The elements of a custom rule

`ndpi_main.c:868-925,3621-3703,3706-3866,5556-5853`, `ndpi_utils.c:3178-3235` and
`ahocorasick.c:225-276`: `ndpi_handle_rule` with the tables that the elements of a
rule are added to. The host automaton is the list of its patterns; the level and the
flags of a pattern follow from its text. What `getaddrinfo`, `inet_pton` and
`ndpi_decode_tls_blocks` make of a text is a parameter, and so is each allocation.
-/
namespace Ndpi.Source.RuleElements
open Lib Source.CustomRules Source.DefaultPorts

structure HostPattern where
  astring : Text
  number : Nat
  category : Nat
  breed : Nat
  deriving DecidableEq, Repr

structure Automaton where
  automataOpen : Bool
  patterns : List HostPattern
  deriving DecidableEq, Repr

inductive AcError where
  | success | duplicatePattern | longPattern | zeroPattern | automataClosed | error
  deriving DecidableEq, Repr

/-- `aho_lc`. -/
def ahoLc (c : Char) : Char := c.toLower

/-- `ac_automata_add` with `AC_FEATURE_LC`. A pattern that is there needs no memory. -/
def acAutomataAdd (granted : Bool) (thiz : Automaton) (patt : HostPattern) :
    AcError × Automaton :=
  if thiz.automataOpen = false then (.automataClosed, thiz)
  else if patt.astring = [] then (.zeroPattern, thiz)
  else if patt.astring.length > 256 then (.longPattern, thiz)
  else if thiz.patterns.any fun p => p.astring.map ahoLc = patt.astring.map ahoLc then
    (.duplicatePattern, thiz)
  else if granted then (.success, { thiz with patterns := thiz.patterns ++ [patt] })
  else (.error, thiz)

/-- An entry of `ndpi_str_hash`; the blocks of its list are kept as their text with the
protocol that is stored in them. -/
structure HashEntry where
  key : Text
  value64 : Nat
  valueList : List (Text × Nat)
  deriving DecidableEq, Repr

abbrev StrHash := List HashEntry

/-- Which of the allocations for one element are granted. -/
structure Allocations where
  strdup : Bool
  pattern : Bool
  node : Bool
  listItem : Bool
  hash : Bool
  item : Bool
  key : Bool
  link : Bool
  deriving DecidableEq, Repr

/-- `ndpi_hash_add_entry`. The length of the key is kept in eight bits, and an entry
that is there already is changed. -/
def hashAddEntry (memory : Allocations) (h : StrHash) (key : Text) (value : Nat)
    (extraData : Option (Text × Nat)) : Int × StrHash :=
  let key := key.take (key.length % 256)
  if key = [] then (3, h)
  else if h.any fun item => item.key = key then
    (1, h.map fun item =>
      if item.key ≠ key then item
      else match extraData with
        | some blocks => { item with valueList := item.valueList ++ [blocks] }
        | none => { item with value64 := value })
  else if memory.item = false then (2, h)
  else if memory.key = false then (1, h)
  else if memory.link = false then (4, h)
  else
    (0, h ++ [match extraData with
      | some blocks => ⟨key, 0, [blocks]⟩
      | none => ⟨key, value, []⟩])

/-- A table that is made when it is first needed. -/
def addToHash (memory : Allocations) (failure : Int) (h : Option StrHash) (key : Text) (value : Nat)
    (extraData : Option (Text × Nat)) : Int × Option StrHash :=
  match h with
  | some h =>
    let (rc, h) := hashAddEntry memory h key value extraData
    (rc, some h)
  | none =>
    if memory.hash = false then (failure, none)
    else
      let (rc, h) := hashAddEntry memory [] key value extraData
      (rc, some h)

/-- What the text of an address comes to: an address, a number of its bits, and a port
or 0. -/
inductive HostAddress where
  | v4 (address : BitVec 32) (bits : Fin 33) (port : UInt16)
  | v6 (address : BitVec 128) (bits : Fin 129) (port : UInt16)
  deriving DecidableEq

def HostAddress.rule (protocolId : UInt16) : HostAddress → NetworkRules.HostRule
  | .v4 address bits port => .v4 address bits port protocolId
  | .v6 address bits port => .v6 address bits port protocolId

/-- The fields of `ndpi_detection_module_struct` that a rule may change, and the trees
of default ports. -/
structure RuleState where
  module : Module
  hostAutoma : Option Automaton
  protocols : Option NetworkRules.Ptree
  ja4CustomProtos : Option StrHash
  ndpifpCustomProtos : Option StrHash
  httpUrlHashmap : Option StrHash
  tlsMaxNumBlocksToAnalyze : Nat
  tcpRoot : PortTree
  udpRoot : PortTree

/-- What a rule asks of the rest: `rules` for the registration and the rules without
`@`, the address of a text for a family, the number of TLS blocks in a text, and the
memory for each element. -/
structure ElementEnv where
  rules : RuleEnv
  address : Text → Bool → Option HostAddress
  decodeTlsBlocks : Text → Option Nat
  memory : Nat → Allocations

section

variable (memory : Allocations)

/-- `string_to_automa` for the host automaton. -/
def stringToAutoma (automa : Option Automaton) (value : Option Text) (protocolId category breed : Nat) :
    Int × Option Automaton :=
  match automa, value with
  | some a, some text =>
    if text = [] then (-2, automa)
    else if memory.strdup = false then (-1, automa)
    else
      let (rc, a) := acAutomataAdd memory.pattern a ⟨text, protocolId, category, breed⟩
      (if rc = .success ∨ rc = .duplicatePattern then 0 else -2, some a)
  | _, _ => (-2, automa)

/-- `ndpi_add_host_url_subprotocol`. -/
def addHostUrlSubprotocol (s : RuleState) (value : Option Text) (protocolId category breed : Nat) :
    Int × RuleState :=
  let (rc, automa) := stringToAutoma memory s.hostAutoma value protocolId category breed
  (rc, { s with hostAutoma := automa })

/-- `ndpi_add_ja4_subprotocol`. -/
def addJa4Subprotocol (decodeTlsBlocks : Text → Option Nat) (s : RuleState) (ja4 : Text)
    (protocolId : Nat) : Int × RuleState :=
  if ja4.length < 36 then (-2, s)
  else if 36 < ja4.length ∧ s.tlsMaxNumBlocksToAnalyze = 0 then (-1, s)
  else
    let text := ja4.drop 37
    let blocks :=
      if ja4.length = 36 then none
      else match decodeTlsBlocks text with
        | some number =>
          if number < s.tlsMaxNumBlocksToAnalyze then none else some (text, protocolId)
        | none => none
    let (rc, h) := addToHash memory (-3) s.ja4CustomProtos (ja4.take 36) protocolId blocks
    (rc, { s with ja4CustomProtos := h })

/-- `ndpi_add_ndpifp_subprotocol`. -/
def addNdpifpSubprotocol (s : RuleState) (ndpifp : Text) (protocolId : Nat) : Int × RuleState :=
  if ndpifp.length ≠ 32 then (-1, s)
  else
    let (rc, h) := addToHash memory (-2) s.ndpifpCustomProtos ndpifp protocolId none
    (rc, { s with ndpifpCustomProtos := h })

/-- `ndpi_add_http_url_subprotocol`. -/
def addHttpUrlSubprotocol (s : RuleState) (url : Text) (protocolId category breed : Nat) :
    Int × RuleState :=
  let id := breed % 65536 * 2 ^ 32 + category % 65536 * 2 ^ 16 + protocolId % 65536
  let (rc, h) := addToHash memory (-2) s.httpUrlHashmap url id none
  (rc, { s with httpUrlHashmap := h })

/-- Whether `add_to_ptree` returns a node for an address. -/
def hasNode (tree : NetworkRules.Ptree) : HostAddress → Bool
  | .v4 address bits _ =>
    memory.node || (tree.v4.nodes (NetworkRules.fillPrefix address bits 32)).isSome
  | .v6 address bits _ =>
    memory.node || (tree.v6.nodes (NetworkRules.fillPrefix address bits 128)).isSome

/-- `ndpi_add_host_ip_subprotocol` once the text is read. Without a node it does nothing
and succeeds. -/
def addHostIpSubprotocol (s : RuleState) (value : Option HostAddress) (protocolId : UInt16) :
    Int × RuleState :=
  match s.protocols, value with
  | some tree, some address =>
    if hasNode memory tree address then
      match NetworkRules.addHostIpSubprotocol memory.listItem ⟨0, tree⟩
          (address.rule protocolId) with
      | some m => (0, { s with protocols := some m.protocols })
      | none => (-1, s)
    else (0, s)
  | _, _ => (-1, s)

end

section

variable (env : ElementEnv) (subprotocolId category breed : Nat)

/-- One element of a rule, the one at this place. -/
def handleElement (place : Nat) (s : RuleState) (attr : Text) : Int × RuleState :=
  let memory := env.memory place
  match parseElement attr with
  | .ports tcp range =>
    (0, { s with module := storeElementPorts s.module subprotocolId tcp range })
  | .ip value isIpv6 =>
    addHostIpSubprotocol memory s (env.address value isIpv6) (UInt16.ofNat subprotocolId)
  | .host value => addHostUrlSubprotocol memory s value subprotocolId category breed
  | .nbpf => (-6, s)
  | .ja4 value => addJa4Subprotocol memory env.decodeTlsBlocks s value subprotocolId
  | .ndpifp value => addNdpifpSubprotocol memory s value subprotocolId
  | .httpUrl value => addHttpUrlSubprotocol memory s value subprotocolId category breed

end

/-- The module with the tables that elements are added to. -/
abbrev allTables (env : ElementEnv) : RuleTables RuleState where
  module := RuleState.module
  update s m := { s with module := m }
  element := handleElement env

/-- `ndpi_handle_rule` on all of the tables. -/
def handleRule (env : ElementEnv) (s : RuleState) (rule : Text) : Int × RuleState :=
  (allTables env).handleRule env.rules s rule

end Ndpi.Source.RuleElements
