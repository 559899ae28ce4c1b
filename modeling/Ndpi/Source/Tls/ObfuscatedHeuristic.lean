import Ndpi.Lib.Memory

/-!
# The heuristic for obfuscated TLS

`tls.c:154-185,249-402`, `ndpi_main.c:8452-8465` and `ndpi_config.c:126`: the bytes and
packets of four consecutive bursts of a flow, collected in two overlapping sets. The
distance test of `check_set` is a parameter, and the sets it is called with are kept.
-/
namespace Ndpi.Source.Tls.ObfuscatedHeuristic
open Lib

/-- `struct tls_obfuscated_heuristic_set`; there are four counters of each kind. -/
structure HeuristicSet where
  stage : Nat
  bytes : List UInt32
  pkts : List UInt32
  deriving DecidableEq, Repr

/-- `struct tls_obfuscated_heuristic_state`. -/
structure HeuristicState where
  numPkts : UInt8
  set0 : HeuristicSet
  set1 : HeuristicSet
  deriving DecidableEq, Repr

def zeroSet : HeuristicSet := ⟨0, [0, 0, 0, 0], [0, 0, 0, 0]⟩

/-- The state as `ndpi_calloc` and `memset` leave it. -/
def freshState : HeuristicState := ⟨0, zeroSet, zeroSet⟩

/-- `fromClient` is the answer of `current_pkt_from_client_to_server`;
`current_pkt_from_server_to_client` is its negation. -/
structure Packet where
  fromClient : Bool
  payload : Bytes
  short : payload.length < 65536
  deriving Repr

def Packet.payloadPacketLen (p : Packet) : Nat := p.payload.length

/-- The range is that of the configuration table. -/
structure Config where
  tlsHeuristicsMaxPackets : Nat
  inRange : tlsHeuristicsMaxPackets ≤ 255

def protocolTls : Nat := 91

/-- What the heuristic reads and sets of a flow; `extraPacketsFunc` tells whether the
flow is in extra dissection. -/
structure Flow where
  extraPacketsFunc : Bool
  detectedProtocolStack : Nat × Nat
  changeCipherFromClient : Bool
  changeCipherFromServer : Bool
  obfuscatedHeurState : Option HeuristicState
  deriving DecidableEq, Repr

def Flow.isTlsInTlsHeur (flow : Flow) : Bool :=
  flow.extraPacketsFunc && (flow.detectedProtocolStack.1 == protocolTls ||
    flow.detectedProtocolStack.2 == protocolTls)

def Flow.byteOverhead (flow : Flow) : Nat := if flow.isTlsInTlsHeur then 24 else 0

/-- The values 0, 1 and 2 that the search returns. -/
inductive Verdict where
  | goOn | exclude | found
  deriving DecidableEq, Repr

/-- What the `switch` does with a set: set its stage, leave it unused, or give up. -/
inductive Switched where
  | stage (next : Nat)
  | unused
  | exclude
  deriving DecidableEq, Repr

def switchStage (mayOpen fromClient : Bool) : Nat → Switched
  | 0 => if mayOpen then (if fromClient then .stage 1 else .exclude) else .unused
  | 1 => .stage (if fromClient then 1 else 2)
  | 2 => .stage (if fromClient then 3 else 2)
  | 3 => .stage (if fromClient then 3 else 4)
  | 4 => .stage (if fromClient then 5 else 4)
  | stage => .stage stage

/-- The verdict on a set, the set afterwards, and the sets given to `check_set`. -/
structure SetOutcome where
  verdict : Verdict
  set : HeuristicSet
  evaluated : List HeuristicSet
  deriving DecidableEq, Repr

/-- One turn of the loop over the sets. -/
def updateSet (checkSet : HeuristicSet → Bool) (mayOpen fromClient : Bool) (size : UInt32)
    (set : HeuristicSet) : SetOutcome :=
  match switchStage mayOpen fromClient set.stage with
  | .exclude => ⟨.exclude, set, []⟩
  | .unused => ⟨.goOn, set, []⟩
  | .stage stage =>
    if stage ≠ 5 then
      ⟨.goOn, ⟨stage, set.bytes.modify (stage - 1) (· + size), set.pkts.modify (stage - 1) (· + 1)⟩,
        []⟩
    else if checkSet { set with stage := 5 } then
      ⟨.found, { set with stage := 5 }, [{ set with stage := 5 }]⟩
    else ⟨.goOn, ⟨1, [size, 0, 0, 0], [1, 0, 0, 0]⟩, [{ set with stage := 5 }]⟩

/-- The loop over the sets. -/
def updateSets (checkSet : HeuristicSet → Bool) (fromClient : Bool) (size : UInt32)
    (state : HeuristicState) : Verdict × HeuristicState × List HeuristicSet :=
  let first := updateSet checkSet true fromClient size state.set0
  if first.verdict ≠ .goOn then
    (first.verdict, { state with set0 := first.set }, first.evaluated)
  else
    let second := updateSet checkSet (first.set.stage == 3) fromClient size state.set1
    (second.verdict, ⟨state.numPkts, first.set, second.set⟩, first.evaluated ++ second.evaluated)

/-- The verdict of a call, the flow afterwards, and the sets given to `check_set`. -/
structure Outcome where
  verdict : Verdict
  flow : Flow
  evaluated : List HeuristicSet
  deriving DecidableEq, Repr

def tlsObfuscatedHeurSearch (checkSet : HeuristicSet → Bool) (cfg : Config) (flow : Flow)
    (p : Packet) : Outcome :=
  match flow.obfuscatedHeurState with
  | none => ⟨.exclude, flow, []⟩
  | some state =>
    if p.payloadPacketLen = 0 then ⟨.goOn, flow, []⟩
    else if p.payloadPacketLen < flow.byteOverhead then ⟨.exclude, flow, []⟩
    -- Before a Change-Cipher of the same direction nothing is counted.
    else if flow.isTlsInTlsHeur && p.fromClient && !flow.changeCipherFromClient then
      ⟨.goOn, { flow with changeCipherFromClient := p.payload.head? == some 0x14 }, []⟩
    else if flow.isTlsInTlsHeur && !p.fromClient && !flow.changeCipherFromServer then
      ⟨.goOn, { flow with changeCipherFromServer := p.payload.head? == some 0x14 }, []⟩
    else
      let counted := { state with numPkts := state.numPkts + 1 }
      if state.numPkts.toNat > cfg.tlsHeuristicsMaxPackets then
        ⟨.exclude, { flow with obfuscatedHeurState := some counted }, []⟩
      else
        let (verdict, updated, evaluated) := updateSets checkSet p.fromClient
          (UInt32.ofNat (p.payloadPacketLen - flow.byteOverhead)) counted
        ⟨verdict, { flow with obfuscatedHeurState := some updated }, evaluated⟩

/-- The calls for the packets of a flow; after a verdict other than `goOn` there is no
further call. -/
def calls (checkSet : HeuristicSet → Bool) (cfg : Config) (flow : Flow) :
    List Packet → List Outcome
  | [] => []
  | p :: rest =>
    let outcome := tlsObfuscatedHeurSearch checkSet cfg flow p
    outcome :: if outcome.verdict = .goOn then calls checkSet cfg outcome.flow rest else []

end Ndpi.Source.Tls.ObfuscatedHeuristic
