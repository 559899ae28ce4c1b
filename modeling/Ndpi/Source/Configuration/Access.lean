import Ndpi.Source.Configuration.Params

/-!
# Setting and getting configuration parameters

`ndpi_config.c:279-349,370-395,456-512,614-812`, `ndpi_utils.c:2961-3020,4261-4297,4345-4350`
and `ndpi_utils.c:4945-4994`: the two functions that find a parameter in the table, and
the setters and getters of its types. Loading a configuration file is an input.
-/
namespace Ndpi.Source.Configuration
open Lib Source.CustomRules
open Lib.CString (chars)

/-- `ndpi_bitmask`; a bit from `max_bits` on is never looked at. -/
structure Bitmask where
  maxBits : Nat
  bits : Nat → Bool

/-- `ndpi_bitmask_set` and `ndpi_bitmask_clear`. -/
def Bitmask.assign (b : Bitmask) (bit : Nat) (on : Bool) : Bitmask :=
  if bit < b.maxBits then { b with bits := fun i => if i = bit then on else b.bits i } else b

/-- `ndpi_bitmask_set_all` and `ndpi_bitmask_reset`. -/
def Bitmask.assignAll (b : Bitmask) (on : Bool) : Bitmask := { b with bits := fun _ => on }

/-- `!!ndpi_bitmask_is_set`, which is -1 for a bit outside the mask. -/
def Bitmask.isSet (b : Bitmask) (bit : Nat) : Bool := if bit < b.maxBits then b.bits bit else true

/-- `ndpi_detection_module_config_struct`. -/
structure Config where
  int : IntField → Int
  mask : MaskField → Bitmask
  filenameConfig : Text

def Config.setInt (cfg : Config) (field : IntField) (value : Int) : Config :=
  { cfg with int := fun f => if f = field then value else cfg.int f }

def Config.setMask (cfg : Config) (field : MaskField) (value : Bitmask) : Config :=
  { cfg with mask := fun f => if f = field then value else cfg.mask f }

/-- The fields of `ndpi_detection_module_struct` that the configuration reads or sets. -/
structure Context where
  module : Module
  finalized : Bool
  gCtx : Bool
  cfg : Config

/-- `ndpi_cfg_error`. -/
inductive CfgError where
  | ok
  | invalidContext
  | notFound
  | invalidParam
  | contextAlreadyInitialized
  | callbackError
  deriving DecidableEq, Repr

/-- `_set_param_filename_config`, which reads the file and sets what it says. -/
structure ConfigEnv where
  setParamFilenameConfig : Context → Text → CfgError × Context

/-- The digits of a number in base 8, 10 or 16, and the base, as `strtoll` finds them
when it is asked for base 0. -/
def autoDigits (text : Text) : Text × Nat :=
  let hexDigit (c : Char) : Bool :=
    c.isDigit || ('a' ≤ c && c ≤ 'f') || ('A' ≤ c && c ≤ 'F')
  let octalDigit (c : Char) : Bool := '0' ≤ c && c ≤ '7'
  match text with
  | '0' :: x :: h :: more =>
    if (x = 'x' ∨ x = 'X') ∧ hexDigit h then ((h :: more).takeWhile hexDigit, 16)
    else (text.takeWhile octalDigit, 8)
  | '0' :: _ => (text.takeWhile octalDigit, 8)
  | _ => (text.takeWhile Char.isDigit, 10)

def digitValue (c : Char) : Nat :=
  if c.isDigit then c.toNat - 48 else if 'a' ≤ c then c.toNat - 87 else c.toNat - 55

/-- `ndpi_strtonum` for all of the range of `int64_t` and base 0; `none` if it sets
`errstrp`. Further characters after the number are allowed. -/
def strtonumAuto (numstr : Text) : Option Int :=
  let start := numstr.dropWhile isspace
  let signed := start.head? = some '-' ∨ start.head? = some '+'
  let (digits, base) := autoDigits (if signed then start.tail else start)
  let magnitude : Int := digits.foldl (fun acc c => acc * base + digitValue c) 0
  let val := if start.head? = some '-' then -magnitude else magnitude
  if digits = [] then none
  else if val < -9223372036854775808 ∨ val > 9223372036854775807 then none
  else some val

/-- The value of an `int` that a `long` is assigned to. -/
def toInt (val : Int) : Int := Int.bmod val 4294967296

/-- The values that switch on and off. -/
def switchValue (value : Text) : Option Bool :=
  if value = chars "1" ∨ value = chars "enable" then some true
  else if value = chars "0" ∨ value = chars "disable" then some false
  else none

/-- The number that `strtol` reads if it comes to the end of the text. -/
def wholeNumber (text : Text) : Option Int :=
  let (negative, digits, rest) := scanNumber text
  if text = [] then some 0
  else if digits ≠ [] ∧ rest = [] then
    some (if negative then -(digitsNumber digits : Int) else digitsNumber digits)
  else none

/-- `__get_proto_id`; 0 is `NDPI_PROTOCOL_UNKNOWN`. -/
def getProtoId (m : Module) (protoNameOrId : Text) : Nat :=
  match wholeNumber protoNameOrId with
  | some val =>
    if 0 ≤ val ∧ val < m.numInternalProtocols then val.toNat else getProtoByName m protoNameOrId
  | none => getProtoByName m protoNameOrId

/-- `ndpi_risk_shortnames`. -/
def riskShortnames : List Text := [
  "unknown", "xss", "sql", "rce", "binary_transfer", "non_standard_port", "tls_selfsigned_cert",
  "tls_obsolete_ver", "tls_weak_cipher", "tls_cert_expired", "tls_cert_mismatch", "http_susp_ua",
  "numeric_ip_host", "http_susp_url", "http_susp_header", "tls_not_https", "dga", "malformed_pkt",
  "ssh_obsolete_client", "ssh_obsolete_server", "smb_insecure_ver",
  "mismatching_hostname_with_ip", "unsafe_proto", "dns_susp", "tls_no_sni", "http_susp_content",
  "risky_asn", "risky_domain", "malicious_fingerprint", "malicious_cert", "desktop_sharing",
  "uls_uncommon_alpn", "tls_cert_too_long", "tls_susp_ext", "tls_fatal_err", "susp_entropy",
  "clear_credential", "dns_large_pkt", "dns_fragmented", "invalid_characters", "exploit",
  "tls_cert_about_to_expire", "punycode", "error_code", "crawler_bot", "anonymous_subscriber",
  "unidirectional", "http_obsolete_server", "periodic_flow", "minor_issues", "tcp_issues",
  "unresolved_hostname", "tls_alpn_mismatch", "malware_host", "binary_data_transfer", "probing",
  "obfuscated", "slow_DoS"].map chars

/-- `__get_flowrisk_id`; 0 is `NDPI_NO_RISK`. -/
def getFlowriskId (flowriskNameOrId : Text) : Nat :=
  let byName :=
    if flowriskNameOrId ∈ riskShortnames then riskShortnames.idxOf flowriskNameOrId else 0
  match wholeNumber flowriskNameOrId with
  | some val => if 0 ≤ val ∧ val < riskShortnames.length then val.toNat else byName
  | none => byName

/-- `_set_param_enable_disable`. -/
def setParamEnableDisable (field : IntField) (value : Text) (cfg : Config) : CfgError × Config :=
  match switchValue value with
  | some on => (.ok, cfg.setInt field (if on then 1 else 0))
  | none => (.invalidParam, cfg)

/-- `_set_param_int`. -/
def setParamInt (field : IntField) (limits : Option (Text × Text)) (value : Text)
    (cfg : Config) : CfgError × Config :=
  match strtonumAuto value with
  | none => (.invalidParam, cfg)
  | some val =>
    let outside := match limits with
      | some (minValue, maxValue) =>
        val < (strtonumAuto minValue).getD 0 || val > (strtonumAuto maxValue).getD 0
      | none => false
    if outside then (.invalidParam, cfg) else (.ok, cfg.setInt field (toInt val))

/-- The common part of the setters for masks: `everything` tells whether the name
stands for all bits, `id` is the bit of the name, 0 if there is none. -/
def setParamMask (field : MaskField) (everything : Bool) (id : Nat) (value : Text)
    (cfg : Config) : CfgError × Config :=
  match everything, switchValue value with
  | true, some on => (.ok, cfg.setMask field ((cfg.mask field).assignAll on))
  | _, on =>
    if id = 0 then (.invalidParam, cfg)
    else
      match on with
      | some on => (.ok, cfg.setMask field ((cfg.mask field).assign id on))
      | none => (.invalidParam, cfg)

/-- `_set_param_protocol_enable_disable`. -/
def setParamProtocolEnableDisable (m : Module) (field : MaskField) (value proto : Text)
    (cfg : Config) : CfgError × Config :=
  let everything := proto = chars "any" ∨ proto = chars "all" ∨
    proto = chars "$PROTO_NAME_OR_ID"
  setParamMask field everything (getProtoId m proto) value cfg

/-- The name of a flow risk in a parameter, within a buffer of 128 bytes. -/
def riskName (param : Text) : Text :=
  let name := param.drop 10
  if name.length > 5 ∧ chars ".info" <:+ name then name.take (min (name.length - 5) 127)
  else name.take 127

/-- `_set_param_flowrisk_enable_disable`. -/
def setParamFlowriskEnableDisable (field : MaskField) (value param : Text) (cfg : Config) :
    CfgError × Config :=
  if chars "flow_risk." <+: param then
    let name := riskName param
    let everything := name = chars "any" ∨ name = chars "all" ∨
      name = chars "$FLOWRISK_NAME_OR_ID"
    setParamMask field everything (getFlowriskId name) value cfg
  else (.invalidParam, cfg)

/-- `fn_set` of an entry. The setter for protocols is given one: its entries have one
themselves, and match only if the call does. -/
def setParam (env : ConfigEnv) (ctx : Context) (kind : ParamKind) (proto : Option Text)
    (param value : Text) : CfgError × Context :=
  let onConfig (result : CfgError × Config) : CfgError × Context :=
    (result.1, { ctx with cfg := result.2 })
  match kind with
  | .enableDisable field => onConfig (setParamEnableDisable field value ctx.cfg)
  | .int field limits => onConfig (setParamInt field limits value ctx.cfg)
  | .protocolEnableDisable field =>
    onConfig (setParamProtocolEnableDisable ctx.module field value (proto.getD []) ctx.cfg)
  | .filenameConfig => env.setParamFilenameConfig ctx value
  | .flowriskEnableDisable field =>
    onConfig (setParamFlowriskEnableDisable field value param ctx.cfg)

/-- An entry in `ndpi_set_default_config`, which calls its setter without a module; only
the name of the configuration file has no default. -/
def setDefault (cfg : Config) (c : CfgParam) : Config :=
  match c.defaultValue with
  | some value =>
    (setParam ⟨fun ctx _ => (.ok, ctx)⟩ ⟨⟨0, [], []⟩, false, false, cfg⟩ c.kind c.proto c.param
      value).2.cfg
  | none => { cfg with filenameConfig := [] }

/-- `ndpi_set_default_config`. -/
def setDefaultConfig (maxInternalProto : Nat) : Config :=
  let maxBits : MaskField → Nat
    | .flowriskBitmask | .flowriskInfoBitmask => riskShortnames.length
    | _ => maxInternalProto
  cfgParams.foldl setDefault ⟨fun _ => 0, fun field => ⟨maxBits field, fun _ => false⟩, []⟩

/-- `clbk_only_with_global_ctx` on the field of an entry. -/
def callback (ctx : Context) (kind : ParamKind) : CfgError × Context :=
  match kind with
  | .int field _ =>
    if ctx.cfg.int field > 0 ∧ ctx.gCtx = false then
      (.callbackError, { ctx with cfg := ctx.cfg.setInt field 0 })
    else (.ok, ctx)
  | _ => (.ok, ctx)

/-- The name of the parameter fits the entry as it stands, or the entry is for any
protocol. -/
def namedBy (proto : Option Text) (param : Text) (c : CfgParam) : Bool :=
  (proto = c.proto && param = c.param) ||
    (proto.isSome && c.proto = some (chars "$PROTO_NAME_OR_ID") && param = c.param)

/-- The condition of `ndpi_set_config` on an entry. -/
def setMatches (proto : Option Text) (param : Text) (c : CfgParam) : Bool :=
  namedBy proto param c ||
    (proto = none && c.proto = none && chars "flow_risk.$FLOWRISK_NAME_OR_ID" <+: c.param &&
      chars "flow_risk." <+: param && !decide (chars ".info" <:+ param) &&
      !decide (chars ".load" <:+ param)) ||
    (proto = none && c.proto = none && chars "flow_risk.$FLOWRISK_NAME_OR_ID.info" <+: c.param &&
      chars "flow_risk." <+: param && chars ".info" <:+ param)

/-- The condition of `ndpi_get_config` on an entry. -/
def getMatches (proto : Option Text) (param : Text) (c : CfgParam) : Bool :=
  namedBy proto param c ||
    (proto = none && c.proto = none && c.param = chars "flow_risk.$FLOWRISK_NAME_OR_ID" &&
      param = c.param)

/-- `ndpi_set_config`. -/
def setConfig (env : ConfigEnv) (ctx : Context) (proto : Option Text) (param value : Text) :
    CfgError × Context :=
  if ctx.finalized then (.contextAlreadyInitialized, ctx)
  else
    let proto := if proto = some (chars "NULL") then none else proto
    match cfgParams.find? (setMatches proto param) with
    | none => (.notFound, ctx)
    | some c =>
      let result := setParam env ctx c.kind proto param value
      if result.1 = .ok ∧ c.onlyWithGlobalCtx = true then callback result.2 c.kind else result

/-- What a call of `ndpi_get_config` comes to; it crashes where a string function is
given NULL. -/
inductive Reading where
  | null
  | text (buf : Bytes)
  | crash
  deriving DecidableEq, Repr

/-- `snprintf` into a buffer of `bufLen` bytes. -/
def printed (text : Bytes) (bufLen : Nat) : Reading := .text (text.take (bufLen - 1))

/-- The getters for masks. -/
def getParamMask (b : Bitmask) (id : Nat) (bufLen : Nat) : Reading :=
  if id = 0 then .null else printed (decimalInt (if b.isSet id then 1 else 0)) bufLen

/-- `fn_get` of an entry. -/
def getParam (ctx : Context) (kind : ParamKind) (proto : Option Text) (bufLen : Nat) : Reading :=
  match kind with
  | .enableDisable field => printed (decimalInt (ctx.cfg.int field)) bufLen
  | .int field _ => printed (decimalInt (ctx.cfg.int field)) bufLen
  | .protocolEnableDisable field =>
    match proto with
    | some proto => getParamMask (ctx.cfg.mask field) (getProtoId ctx.module proto) bufLen
    | none => .crash
  | .filenameConfig =>
    printed (ctx.cfg.filenameConfig.map fun c => UInt8.ofNat c.toNat) bufLen
  | .flowriskEnableDisable field =>
    match proto with
    | some proto => getParamMask (ctx.cfg.mask field) (getFlowriskId proto) bufLen
    | none => .crash

/-- `ndpi_get_config`, with a buffer of `bufLen` bytes. -/
def getConfig (ctx : Context) (proto : Option Text) (param : Text) (bufLen : Nat) : Reading :=
  if bufLen = 0 then .null
  else
    match cfgParams.find? (getMatches proto param) with
    | none => .null
    | some c => getParam ctx c.kind proto bufLen

end Ndpi.Source.Configuration
