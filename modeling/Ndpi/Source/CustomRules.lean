import Ndpi.Source.DefaultPorts
import Ndpi.Lib.Words

/-!
# Custom rules

`ndpi_main.c:297-449,676-755,5397-5403,5556-5853` and `ndpi_utils.c:4261-4297`: the
rules `<elements>@<protocol>[=<id>][,cat=<category>][,breed=<breed>]` that register
custom protocols, and the mapping between the internal ids of these and the ids the
user gave them. A C string is the list of its characters. The library is built
without nBPF.
-/
namespace Ndpi.Source.CustomRules
open Lib Source.DefaultPorts

abbrev Text := List Char

/-- `strrchr` with the text on both sides. -/
def splitAtLast (c : Char) (text : Text) : Option (Text × Text) :=
  if c ∈ text then
    let after := (text.reverse.takeWhile (· ≠ c)).reverse
    some (text.take (text.length - (after.length + 1)), after)
  else none

/-- `strchr` with the text on both sides. -/
def splitAtFirst (c : Char) (text : Text) : Option (Text × Text) :=
  if c ∈ text then
    let before := text.takeWhile (· ≠ c)
    some (before, text.drop (before.length + 1))
  else none

def isspace (c : Char) : Bool := c ∈ [' ', '\t', '\n', '\x0b', '\x0c', '\r']

def digitsNumber (digits : Text) : Nat := digits.foldl (fun acc c => acc * 10 + (c.toNat - 48)) 0

/-- The sign, the digits and what follows them, as `strtol` and its kin read them. -/
def scanNumber (text : Text) : Bool × Text × Text :=
  let start := text.dropWhile isspace
  let signed := start.head? = some '-' ∨ start.head? = some '+'
  let rest := if signed then start.tail else start
  (start.head? = some '-', rest.takeWhile Char.isDigit, rest.dropWhile Char.isDigit)

/-- `strtoll` in base 10, and whether it has read any digit. -/
def strtoll (text : Text) : Int × Bool :=
  let (negative, digits, _) := scanNumber text
  let value : Int := digitsNumber digits
  (if negative then max (-value) (-9223372036854775808) else min value 9223372036854775807,
    digits ≠ [])

/-- `ndpi_strtonum`. A number out of the range of `strtoll` is out of any range
asked for. -/
def strtonum (numstr : Text) (minval maxval : Int) : Except String Int :=
  if minval > maxval then .error "minval > maxval"
  else
    let (val, found) := strtoll numstr
    if val < minval then .error "value too small"
    else if val > maxval then .error "value too large"
    else if found = false then .error "No digits were found"
    else .ok val

/-- The fields of `ndpi_proto_defaults_t` that the rules read or set. -/
structure ProtoDefaults where
  protoName : Text
  isCustomProto : Bool
  protoCategory : Nat
  protoBreed : Nat
  tcpDefaultPorts : Vector PortRange 5
  udpDefaultPorts : Vector PortRange 5
  deriving DecidableEq

/-- The fields of `ndpi_detection_module_struct` that the rules read or set.
`protoDefaults` has the entries in use: the first `num_supported_protocols`. -/
structure Module where
  numInternalProtocols : Nat
  protoDefaults : List ProtoDefaults
  ndpiToUserProtoId : List Nat
  deriving DecidableEq

def Module.numSupportedProtocols (m : Module) : Nat := m.protoDefaults.length

/-- `ndpi_get_proto_by_name`; 0 is `NDPI_PROTOCOL_UNKNOWN`. -/
def getProtoByName (m : Module) (name : Text) : Nat :=
  if name = [] then 0
  else
    let same (p : ProtoDefaults) : Bool :=
      p.protoName ≠ [] ∧ p.protoName.map Char.toLower = name.map Char.toLower
    let searched := m.protoDefaults.take (wrap16 m.numSupportedProtocols)
    if searched.any same then searched.findIdx same else 0

/-- `ndpi_is_custom_protocol`. -/
def isCustomProtocol (m : Module) (protoId : Nat) : Bool :=
  (m.protoDefaults[protoId]?.map (·.isCustomProto)).getD false

/-- `ndpi_add_user_proto_id_mapping`; `granted` tells whether the table can be
enlarged, `fresh` what the new part of it holds. -/
def addUserProtoIdMapping (granted : Bool) (fresh : Nat → Nat) (m : Module)
    (ndpiProtoId userProtoId : Nat) : Module :=
  if ndpiProtoId < m.numInternalProtocols then m
  else
    let idx := ndpiProtoId - m.numInternalProtocols
    let allocated := m.ndpiToUserProtoId.length
    if idx ≥ allocated then
      if granted then
        let newNum := min (max 64 (allocated * 2)) 65535
        let newPtr := (List.range newNum).map fun i => m.ndpiToUserProtoId[i]?.getD (fresh i)
        { m with ndpiToUserProtoId := newPtr.set idx userProtoId }
      else m
    else { m with ndpiToUserProtoId := m.ndpiToUserProtoId.set idx userProtoId }

/-- The linear scan of `ndpi_map_user_proto_id_to_ndpi_id`. -/
def scanUserIds (userProtoId : Nat) : List Nat → Nat → Option Nat
  | [], _ => none
  | id :: rest, idx =>
    if id = 0 then none
    else if id = userProtoId then some idx
    else scanUserIds userProtoId rest (idx + 1)

/-- `ndpi_map_user_proto_id_to_ndpi_id`. -/
def mapUserProtoIdToNdpiId (m : Module) (userProtoId : Nat) : Nat :=
  if userProtoId < m.numInternalProtocols then userProtoId
  else
    let idxMax := m.numSupportedProtocols - m.numInternalProtocols
    match scanUserIds userProtoId (m.ndpiToUserProtoId.take idxMax) 0 with
    | some idx => wrap16 (idx + m.numInternalProtocols)
    | none => 0

/-- `ndpi_map_ndpi_id_to_user_proto_id`. -/
def mapNdpiIdToUserProtoId (m : Module) (ndpiProtoId : Nat) : Nat :=
  if ndpiProtoId = 0 then 0
  else if isCustomProtocol m ndpiProtoId = false then ndpiProtoId
  else if ndpiProtoId < m.numSupportedProtocols then
    let idx := ndpiProtoId - m.numInternalProtocols
    if idx < m.numSupportedProtocols then m.ndpiToUserProtoId[idx]?.getD 0 else 0
  else 0

def noPorts : Vector PortRange 5 := Vector.replicate 5 ⟨0, 0, 0⟩

/-- `ndpi_set_proto_defaults` of a custom protocol with the first free id; `granted`
tells whether `proto_defaults` can be enlarged. The name is cut off at 31
characters. -/
def setProtoDefaults (granted : Bool) (m : Module) (breed : Nat) (protoName : Text)
    (category : Nat) : Int × Module :=
  if granted then
    (0, { m with protoDefaults := m.protoDefaults ++
      [⟨protoName.take 31, true, category, breed, noPorts, noPorts⟩] })
  else (-1, m)

/-- `NDPI_PROTOCOL_CATEGORY_UNSPECIFIED`, `NDPI_PROTOCOL_ACCEPTABLE`,
`NDPI_PROTOCOL_NUM_CATEGORIES` and `NDPI_NUM_BREEDS`. -/
def categoryUnspecified : Nat := 0
def breedAcceptable : Nat := 2
def numCategories : Nat := 158
def numBreeds : Nat := 8

/-- One of the parameters behind the protocol; an invalid one is ignored. -/
def ruleParam (parsed : Nat × Nat) (param : Text) : Nat × Nat :=
  if ['c', 'a', 't', '='].isPrefixOf param then
    match strtonum (param.drop 4) 1 (numCategories - 1) with
    | .ok category => (category.toNat, parsed.2)
    | .error _ => parsed
  else if ['b', 'r', 'e', 'e', 'd', '='].isPrefixOf param then
    match strtonum (param.drop 6) 0 (numBreeds - 1) with
    | .ok breed => (parsed.1, breed.toNat)
    | .error _ => parsed
  else parsed

/-- What stands behind the `@` of a rule; `userProtoId` is 0 without an `=id`. -/
structure RuleProtocol where
  name : Text
  userProtoId : Nat
  category : Nat
  breed : Nat
  deriving DecidableEq

/-- The characters that are replaced by an underscore. -/
def sanitize (proto : Text) : Text :=
  proto.map fun c => if c ∈ ['/', '&', '^', ':', ';', '\'', '"', ' '] then '_' else c

/-- The parsing of `protoname=proto_id,cat=cat_id,breed=breed_id`. -/
def parseProtocol (numSupportedProtocols : Nat) (proto : Text) : Except String RuleProtocol :=
  let proto := sanitize proto
  let (proto, params) :=
    match splitAtFirst ',' proto with
    | some (before, after) => (before, after.splitOn ',')
    | none => (proto, [])
  let (category, breed) := params.foldl ruleParam (categoryUnspecified, breedAcceptable)
  match splitAtFirst '=' proto with
  | none => .ok ⟨proto, 0, category, breed⟩
  | some (name, idPart) =>
    match strtonum idPart numSupportedProtocols 65535 with
    | .error message => .error message
    | .ok id => .ok ⟨name, wrap16 id.toNat, category, breed⟩

/-- `%u` of `sscanf`, an unsigned 32-bit number. -/
def scanUnsigned (text : Text) : Option (Nat × Text) :=
  let (negative, digits, rest) := scanNumber text
  if digits = [] then none
  else
    let value := digitsNumber digits
    let stored := if value > 18446744073709551615 then 18446744073709551615
      else if negative then 18446744073709551616 - value else value
    some (wrap32 stored, rest)

/-- The port range of a `tcp:` or `udp:` element. -/
def elementPorts (value : Text) : PortRange :=
  let single := UInt16.ofInt (strtoll value).1
  match scanUnsigned value with
  | some (low, '-' :: rest) =>
    match scanUnsigned rest with
    | some (high, _) => ⟨UInt16.ofNat low, UInt16.ofNat high, 1⟩
    | none => ⟨single, single, 1⟩
  | _ => ⟨single, single, 1⟩

/-- The range goes to the first free place, if there is one. -/
def storePorts (ports : Vector PortRange 5) (range : PortRange) : Vector PortRange 5 :=
  match (List.finRange 5).find? fun j => ports[j].portLow == 0 with
  | some j => ports.set j range
  | none => ports

/-- The value of a `host:` element without its quotes, in lower case up to its last
character. -/
def hostValue (value : Text) : Text :=
  let value := if value.head? = some '"' then value.tail else value
  let init := value.dropLast.map Char.toLower
  if value.getLast? = some '"' then init else init ++ value.getLast?.toList

def storeElementPorts (m : Module) (subprotocolId : Nat) (tcp : Bool) (range : PortRange) :
    Module :=
  { m with protoDefaults := m.protoDefaults.modify subprotocolId fun d =>
      if tcp then { d with tcpDefaultPorts := storePorts d.tcpDefaultPorts range }
      else { d with udpDefaultPorts := storePorts d.udpDefaultPorts range } }

/-- What the text of an element asks for. -/
inductive Element where
  | ports (tcp : Bool) (range : PortRange)
  | ip (value : Text) (isIpv6 : Bool)
  | host (value : Option Text)
  | nbpf
  | ja4 (value : Text)
  | ndpifp (value : Text)
  | httpUrl (value : Text)
  deriving DecidableEq

def parseElement (attr : Text) : Element :=
  if ['t', 'c', 'p', ':'].isPrefixOf attr then .ports true (elementPorts (attr.drop 4))
  else if ['u', 'd', 'p', ':'].isPrefixOf attr then .ports false (elementPorts (attr.drop 4))
  else if ['i', 'p', 'v', '6', ':'].isPrefixOf attr then .ip (attr.drop 5) true
  else if ['i', 'p', ':'].isPrefixOf attr then .ip (attr.drop 3) false
  else if ['h', 'o', 's', 't', ':'].isPrefixOf attr then .host (some (hostValue (attr.drop 5)))
  else if ['n', 'b', 'p', 'f', ':'].isPrefixOf attr then .nbpf
  else if ['j', 'a', '4', ':'].isPrefixOf attr then .ja4 (attr.drop 4)
  else if ['n', 'd', 'p', 'i', 'f', 'p', ':'].isPrefixOf attr then .ndpifp (attr.drop 7)
  else if ['u', 'r', 'l', ':'].isPrefixOf attr then .httpUrl (attr.drop 4)
  else .host none

/-- What the handling of a rule asks of the rest of the library: the results of the
rules without `@` and of the functions for elements, and of the allocations. -/
structure RuleEnv where
  maskRule : Text → Int
  addElement : Element → Nat → Nat → Nat → Int
  mappingGranted : Bool
  defaultsGranted : Bool
  fresh : Nat → Nat

/-- One element of a rule. A value other than 0 ends the rule. -/
def handleElement (env : RuleEnv) (subprotocolId category breed : Nat) (m : Module) (attr : Text) :
    Int × Module :=
  match parseElement attr with
  | .ports tcp range => (0, storeElementPorts m subprotocolId tcp range)
  | .nbpf => (-6, m)
  | element => (env.addElement element subprotocolId category breed, m)

/-- The user id of a protocol that is registered now. -/
def assignedId (m : Module) (proto : RuleProtocol) : Nat :=
  if proto.userProtoId = 0 then m.numSupportedProtocols else proto.userProtoId

/-- The registration of a new protocol. -/
def registerProtocol (env : RuleEnv) (m : Module) (proto : RuleProtocol) : Int × Module :=
  if m.numSupportedProtocols ≥ 65535 then (-2, m)
  else
    let mapped := addUserProtoIdMapping env.mappingGranted env.fresh m m.numSupportedProtocols
      (assignedId m proto)
    let (ret, registered) :=
      setProtoDefaults env.defaultsGranted mapped proto.breed proto.name proto.category
    if ret ≠ 0 then (-3, registered) else (0, registered)

/-- The category and the breed for the elements of a known protocol. -/
def knownDefaults (m : Module) (subprotocolId : Nat) (proto : RuleProtocol) : Nat × Nat :=
  let known := m.protoDefaults[subprotocolId]?
  (if proto.category = categoryUnspecified then (known.map (·.protoCategory)).getD 0
    else proto.category,
    if proto.breed = breedAcceptable then (known.map (·.protoBreed)).getD 0 else proto.breed)

/-- What a rule is carried out on: a state with the module in it, and what an element at
its place in the rule does to it. -/
structure RuleTables (σ : Type) where
  module : σ → Module
  update : σ → Module → σ
  element : Nat → Nat → Nat → Nat → σ → Text → Int × σ

namespace RuleTables

variable (tables : RuleTables σ)

/-- The elements from a place on; the first result other than 0 ends the rule. -/
def handleElements (subprotocolId category breed : Nat) : Nat → σ → List Text → Int × σ
  | _, s, [] => (0, s)
  | place, s, elem :: rest =>
    let (rc, s) := tables.element subprotocolId category breed place s elem
    if rc = 0 then handleElements subprotocolId category breed (place + 1) s rest else (rc, s)

/-- A rule with an `@`. -/
def handleProtocolRule (env : RuleEnv) (s : σ) (elements : List Text) (proto : RuleProtocol) :
    Int × σ :=
  let m := tables.module s
  let subprotocolId := getProtoByName m proto.name
  if subprotocolId = 0 then
    let (rc, registered) := registerProtocol env m proto
    if rc ≠ 0 then (rc, tables.update s registered)
    else
      tables.handleElements m.numSupportedProtocols proto.category proto.breed 0
        (tables.update s registered) elements
  else
    let (category, breed) := knownDefaults m subprotocolId proto
    tables.handleElements subprotocolId category breed 0 s elements

/-- `ndpi_handle_rule`. -/
def handleRule (env : RuleEnv) (s : σ) (rule : Text) : Int × σ :=
  match splitAtLast '@' rule with
  | none => (env.maskRule rule, s)
  | some (elements, proto) =>
    match parseProtocol (tables.module s).numSupportedProtocols proto with
    | .error _ => (-1, s)
    | .ok parsed => tables.handleProtocolRule env s (elements.splitOn ',') parsed

end RuleTables

/-- The module alone, without the tables that other elements are added to. -/
abbrev moduleOnly (env : RuleEnv) : RuleTables Module where
  module m := m
  update _ m := m
  element subprotocolId category breed _ := handleElement env subprotocolId category breed

/-- `ndpi_handle_rule` on the module alone. -/
def handleRule (env : RuleEnv) (m : Module) (rule : Text) : Int × Module :=
  (moduleOnly env).handleRule env m rule

end Ndpi.Source.CustomRules
