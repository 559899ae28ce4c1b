import Mathlib.Data.List.Infix
import Ndpi.Lib.Memory

/-!
# Flow risks

`ndpi_utils.c:3396-3616` and `ndpi_typedefs.h:112-177,265,1413-1416,1652-1656`: the
risks of a flow as a bit mask, the messages stored for some of them, and the
exceptions that mask risks of a host or of the peers' addresses. Only the fields
of the flow that these functions use are kept. The lookups of the exceptions in
the host automaton and in the address trees are inputs of the call.
-/
namespace Ndpi.Source.FlowRisk
open Lib

/-- A value of `ndpi_risk_enum`; `1ull << r` is defined below 64 only. -/
abbrev RiskId := Fin 64

/-- `NDPI_SUSPICIOUS_ENTROPY`. -/
def suspiciousEntropy : RiskId := 35

/-- `MAX_NUM_RISK_INFOS`. -/
def maxNumRiskInfos : Nat := 8

/-- `ndpi_risk_information`; `info` is NULL after a copy that failed. -/
structure RiskInformation where
  id : RiskId
  info : Option Bytes
  deriving DecidableEq, Repr

/-- `riskInfos` holds the first `num_risk_infos` entries of the array. -/
structure Flow where
  risk : BitVec 64
  riskMask : BitVec 64
  hostRiskMaskEvaluated : Bool
  ipRiskMaskEvaluated : Bool
  riskInfos : List RiskInformation
  deriving DecidableEq, Repr

def newFlow : Flow := ⟨0, 0, false, false, []⟩

/-- `is_flowrisk_enabled` and `is_flowrisk_info_enabled`. -/
structure RiskConfig where
  flowriskEnabled : RiskId → Bool
  flowriskInfoEnabled : RiskId → Bool

/-- `1ull << r`. -/
def bit (r : RiskId) : BitVec 64 := 1#64 <<< r.val

/-- `ndpi_isset_risk`. -/
def issetRisk (flow : Flow) (r : RiskId) : Bool := flow.risk &&& bit r == bit r

/-- Storing a message, where there is room and it can be copied. -/
def storeInfo (flow : Flow) (granted : Bool) (r : RiskId) (message : Bytes) : Flow :=
  if flow.riskInfos.length < maxNumRiskInfos ∧ granted = true then
    { flow with riskInfos := flow.riskInfos ++ [⟨r, some message⟩] }
  else flow

/-- A further message for a risk: joined to the one there unless it says nothing
new, within a buffer of 1024 bytes. -/
def RiskInformation.extend (entry : RiskInformation) (granted : Bool) (message : Bytes) :
    RiskInformation :=
  match entry.info with
  | none => entry
  | some info =>
    if entry.id ≠ suspiciousEntropy ∧ info ≠ message ∧ ¬message <:+: info then
      { entry with info := if granted then some ((info ++ 0x3B :: message).take 1023) else none }
    else entry

/-- The first entry of a risk, changed; `none` if there is no such entry. -/
def extendFirst (granted : Bool) (r : RiskId) (message : Bytes) :
    List RiskInformation → Option (List RiskInformation)
  | [] => none
  | entry :: rest =>
    if entry.id = r then some (entry.extend granted message :: rest)
    else (extendFirst granted r message rest).map (entry :: ·)

/-- The risk's bit, or nothing if an exception of the host masks it. -/
def addedRisk (flow : Flow) (r : RiskId) : BitVec 64 :=
  if flow.hostRiskMaskEvaluated then bit r &&& flow.riskMask else bit r

/-- The branch of `ndpi_set_risk` for a risk not yet set. The test whether it has
been masked looks at all risks of the flow. -/
def setNewRisk (cfg : RiskConfig) (granted : Bool) (flow : Flow) (r : RiskId)
    (riskMessage : Option Bytes) : Flow :=
  let flow := { flow with risk := flow.risk ||| addedRisk flow r }
  match riskMessage with
  | some message =>
    if flow.risk ≠ 0 ∧ cfg.flowriskInfoEnabled r = true then storeInfo flow granted r message
    else flow
  | none => flow

/-- The branch of `ndpi_set_risk` for a risk already set. -/
def setKnownRisk (cfg : RiskConfig) (granted : Bool) (flow : Flow) (r : RiskId)
    (riskMessage : Option Bytes) : Flow :=
  match riskMessage with
  | some message =>
    if cfg.flowriskInfoEnabled r = true then
      match extendFirst granted r message flow.riskInfos with
      | some riskInfos => { flow with riskInfos := riskInfos }
      | none => storeInfo flow granted r message
    else flow
  | none => flow

/-- `ndpi_set_risk`; `granted` tells whether the copy of the message succeeds. -/
def setRisk (cfg : RiskConfig) (granted : Bool) (flow : Flow) (r : RiskId)
    (riskMessage : Option Bytes) : Flow :=
  if cfg.flowriskEnabled r = false then flow
  else if issetRisk flow r = false then setNewRisk cfg granted flow r riskMessage
  else setKnownRisk cfg granted flow r riskMessage

/-- The loop of `ndpi_unset_risk`: after removing an entry it goes on behind the
one that took its place. -/
def removeInfos (r : RiskId) : List RiskInformation → List RiskInformation
  | [] => []
  | entry :: rest =>
    if entry.id = r then
      match rest with
      | [] => []
      | next :: more => next :: removeInfos r more
    else entry :: removeInfos r rest

/-- `ndpi_unset_risk`. -/
def unsetRisk (cfg : RiskConfig) (flow : Flow) (r : RiskId) : Flow :=
  if issetRisk flow r then
    let flow := { flow with risk := flow.risk &&& ~~~bit r }
    if cfg.flowriskInfoEnabled r then { flow with riskInfos := removeInfos r flow.riskInfos }
    else flow
  else flow

/-- What a call of `ndpi_handle_risk_exceptions` finds: whether the flow has a
host name, the mask the automaton has for it, and the masks of the two peers,
all ones where there is none. -/
structure ExceptionLookups where
  hasHost : Bool
  hostMask : Option (BitVec 64)
  clientMask : BitVec 64
  serverMask : BitVec 64
  deriving DecidableEq, Repr

/-- The part of `ndpi_handle_risk_exceptions` about the host name. -/
def handleHostException (flow : Flow) (lookups : ExceptionLookups) : Flow :=
  if flow.hostRiskMaskEvaluated = false ∧ lookups.hasHost = true then
    let riskMask :=
      match lookups.hostMask with
      | some mask => flow.riskMask &&& mask
      | none => flow.riskMask
    { flow with
      riskMask := riskMask
      riskInfos := if riskMask = 0 then [] else flow.riskInfos
      hostRiskMaskEvaluated := true }
  else flow

/-- The part of `ndpi_handle_risk_exceptions` about the addresses. -/
def handleIpException (flow : Flow) (lookups : ExceptionLookups) : Flow :=
  if flow.ipRiskMaskEvaluated = false then
    { flow with
      riskMask := flow.riskMask &&& lookups.clientMask &&& lookups.serverMask
      ipRiskMaskEvaluated := true }
  else flow

/-- `ndpi_handle_risk_exceptions`. -/
def handleRiskExceptions (flow : Flow) (lookups : ExceptionLookups) : Flow :=
  if flow.risk = 0 then flow
  else
    let flow :=
      if flow.hostRiskMaskEvaluated = false ∧ flow.ipRiskMaskEvaluated = false then
        { flow with riskMask := BitVec.allOnes 64 }
      else flow
    let flow := handleIpException (handleHostException flow lookups) lookups
    { flow with risk := flow.risk &&& flow.riskMask }

inductive RiskCall where
  | setRisk (granted : Bool) (r : RiskId) (riskMessage : Option Bytes)
  | unsetRisk (r : RiskId)
  | handleRiskExceptions (lookups : ExceptionLookups)
  deriving DecidableEq, Repr

def riskStep (cfg : RiskConfig) (flow : Flow) : RiskCall → Flow
  | .setRisk granted r riskMessage => setRisk cfg granted flow r riskMessage
  | .unsetRisk r => unsetRisk cfg flow r
  | .handleRiskExceptions lookups => handleRiskExceptions flow lookups

end Ndpi.Source.FlowRisk
