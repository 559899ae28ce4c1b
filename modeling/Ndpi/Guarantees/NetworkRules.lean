import Mathlib.Data.List.Induction
import Ndpi.Source.NetworkRules

/-!
# What the network rules answer

The rules of one prefix are kept in two slots and a list. A rule for any port that
came into the list is not found there, since the list is searched for the port
itself; and the IPv6 lookup without a port asks the IPv4 tree.
-/
namespace Ndpi.Guarantees.NetworkRules
open Lib Source.NetworkRules List Option

lemma htons_toNat (x : UInt16) : (htons x).toNat = x.toNat % 256 * 256 + x.toNat / 256 := by
  have small := x.toNat_lt
  rw [htons, UInt16.toNat_ofNat']
  exact Nat.mod_eq_of_lt (by omega)

lemma htons_htons (x : UInt16) : htons (htons x) = x := by
  apply UInt16.toNat.inj
  rw [htons_toNat, htons_toNat]
  have small := x.toNat_lt
  have low : (x.toNat % 256 * 256 + x.toNat / 256) % 256 = x.toNat / 256 := by omega
  have high : (x.toNat % 256 * 256 + x.toNat / 256) / 256 = x.toNat % 256 := by omega
  rw [low, high]
  omega

lemma htons_inj : htons x = htons y ↔ x = y := by
  refine ⟨fun same => ?_, fun same => same ▸ rfl⟩
  rw [← htons_htons x, same, htons_htons]

lemma htons_eq_zero : htons x = 0 ↔ x = 0 := htons_inj (y := 0)

/-- A rule of one prefix: a port, or 0 for any, and a protocol. -/
structure PortRule where
  port : UInt16
  protocol : UInt16
  deriving DecidableEq

def PortRule.value (r : PortRule) : Uv16 := ⟨r.protocol, htons r.port⟩

def PortRule.Matches (q : UInt16) (r : PortRule) : Prop := r.port = 0 ∨ r.port = q

instance (q : UInt16) (r : PortRule) : Decidable (r.Matches q) :=
  inferInstanceAs (Decidable (_ ∨ _))

section

/-- A rule stored where there is memory for it. -/
def Node.push (value : Uv16) (node : Node) : Node :=
  match (List.finRange uv16MaxUserValues).find? fun i => (node.uv16.get i).userValue == 0 with
  | some i => { node with uv16 := node.uv16.set i value i.isLt }
  | none => { node with data := value :: node.data }

lemma storeRule_push (rule : PortRule) {after : Node}
    (stored : storeRule granted rule.protocol rule.port node = some after) :
    after = Node.push rule.value node := by
  unfold storeRule at stored
  unfold Node.push
  cases free : (List.finRange uv16MaxUserValues).find? fun i => node.uv16[i].userValue == 0 with
  | some i =>
    simp only [free] at stored
    cases stored
    rfl
  | none =>
    simp only [free] at stored
    cases granted with
    | true =>
      cases stored
      rfl
    | false => cases stored

lemma push_eq (value first second : Uv16) (data : List Uv16) :
    Node.push value ⟨#v[first, second], data⟩ =
      if first.userValue = 0 then ⟨#v[value, second], data⟩
      else if second.userValue = 0 then ⟨#v[first, value], data⟩
      else ⟨#v[first, second], value :: data⟩ := by
  have slots : List.finRange uv16MaxUserValues = [0, 1] := rfl
  have left : @Vector.get _ uv16MaxUserValues #v[first, second] 0 = first := rfl
  have right : @Vector.get _ uv16MaxUserValues #v[first, second] 1 = second := rfl
  rw [Node.push, slots, find?_cons, find?_cons, find?_nil, left, right]
  by_cases free : first.userValue = 0
  · simp [free]
  · rw [beq_eq_false_iff_ne.mpr free, if_neg free]
    by_cases free' : second.userValue = 0
    · simp [free']
    · rw [beq_eq_false_iff_ne.mpr free', if_neg free']

/-- How a node holds the rules of its prefix: the first two with a protocol in the
slots, all later ones in the list. A rule without a protocol leaves its slot free. -/
inductive Holds : List PortRule → Node → Prop
  | none {rules : List PortRule} {slot : Uv16} (unknown : ∀ r ∈ rules, r.protocol = 0)
      (free : slot.userValue = 0) : Holds rules ⟨#v[slot, {}], []⟩
  | one {before after : List PortRule} {r : PortRule} {slot : Uv16}
      (unknown : ∀ x ∈ before, x.protocol = 0) (known : r.protocol ≠ 0)
      (unknown' : ∀ x ∈ after, x.protocol = 0) (free : slot.userValue = 0) :
      Holds (before ++ r :: after) ⟨#v[r.value, slot], []⟩
  | more {before between rest : List PortRule} {r r' : PortRule}
      (unknown : ∀ x ∈ before, x.protocol = 0) (known : r.protocol ≠ 0)
      (unknown' : ∀ x ∈ between, x.protocol = 0) (known' : r'.protocol ≠ 0) :
      Holds (before ++ r :: (between ++ r' :: rest))
        ⟨#v[r.value, r'.value], (rest.map PortRule.value).reverse⟩

variable {rules : List PortRule}

lemma Holds.push (holds : Holds rules node) (rule : PortRule) :
    Holds (rules ++ [rule]) (Node.push rule.value node) := by
  cases holds with
  | none unknown free =>
    rw [push_eq, if_pos free]
    by_cases known : rule.protocol = 0
    · refine .none (fun r member => ?_) known
      rcases mem_append.mp member with earlier | last
      · exact unknown r earlier
      · rw [mem_singleton.mp last]
        exact known
    · exact .one unknown known (by simp) rfl
  | @one before after r slot unknown known unknown' free =>
    have used : ¬r.value.userValue = 0 := known
    rw [push_eq, if_neg used, if_pos free, append_assoc, cons_append]
    by_cases known' : rule.protocol = 0
    · refine .one unknown known (fun x member => ?_) known'
      rcases mem_append.mp member with earlier | last
      · exact unknown' x earlier
      · rw [mem_singleton.mp last]
        exact known'
    · exact .more unknown known unknown' known'
  | @more before between rest r r' unknown known unknown' known' =>
    have used : ¬r.value.userValue = 0 := known
    have used' : ¬r'.value.userValue = 0 := known'
    have list : rule.value :: (rest.map PortRule.value).reverse =
        ((rest ++ [rule]).map PortRule.value).reverse := by simp
    rw [push_eq, if_neg used, if_neg used', list, append_assoc, cons_append,
      append_assoc, cons_append]
    exact .more unknown known unknown' known'

/-- The node after all rules of its prefix. -/
def nodeOf (rules : List PortRule) : Node :=
  rules.foldl (fun node rule => Node.push rule.value node) .new

lemma holds_nodeOf (rules : List PortRule) : Holds rules (nodeOf rules) := by
  induction rules using List.reverseRecOn with
  | nil => exact .none (by simp) rfl
  | append_singleton rules rule ih =>
    rw [nodeOf, foldl_append]
    exact ih.push rule

lemma protocolAt_eq (first second : Uv16) (data : List Uv16) (port : UInt16) :
    Node.protocolAt ⟨#v[first, second], data⟩ port =
      if first.additionalUserValue = 0 ∨ first.additionalUserValue = port then first.userValue
      else if second.additionalUserValue = 0 ∨ second.additionalUserValue = port then
        second.userValue
      else ((data.find? (·.additionalUserValue == port)).map Uv16.userValue).getD 0 := by
  unfold Node.protocolAt
  have slots : #v[first, second].toList = [first, second] := rfl
  rw [slots]
  by_cases here : first.additionalUserValue = 0 ∨ first.additionalUserValue = port
  · rw [if_pos here, find?_cons_of_pos (by simpa using here)]
  · rw [if_neg here, find?_cons_of_neg (by simpa using here)]
    by_cases there : second.additionalUserValue = 0 ∨ second.additionalUserValue = port
    · rw [if_pos there, find?_cons_of_pos (by simpa using there)]
    · rw [if_neg there, find?_cons_of_neg (by simpa using there), find?_nil]
      cases data.find? (·.additionalUserValue == port) <;> rfl

variable {r : PortRule} {q : UInt16}

lemma value_matches :
    (r.value.additionalUserValue = 0 ∨ r.value.additionalUserValue = htons q) ↔ r.Matches q :=
  or_congr htons_eq_zero htons_inj

/-- The protocol of a rule for any port or for `q` if there is one, or unknown. -/
def Answers (rules : List PortRule) (q protocol : UInt16) : Prop :=
  (∃ r ∈ rules, r.Matches q ∧ r.protocol = protocol) ∨
    (∀ r ∈ rules, ¬r.Matches q) ∧ protocol = 0

instance (rules : List PortRule) (q protocol : UInt16) : Decidable (Answers rules q protocol) :=
  inferInstanceAs (Decidable (_ ∨ _))

/-- The rules that name a protocol. -/
def known (rules : List PortRule) : List PortRule := rules.filter (·.protocol != 0)

/-- No rule for any port comes after the first two with a protocol, unless one of
these is for any port or some rule is for `q`. -/
def AnyPortReached (rules : List PortRule) (q : UInt16) : Prop :=
  (∀ r ∈ (known rules).drop 2, r.port ≠ 0) ∨ (∃ r ∈ (known rules).take 2, r.port = 0) ∨
    (∃ r ∈ known rules, r.port = q) ∨ ∃ r ∈ rules, r.Matches q ∧ r.protocol = 0

lemma known_unknown (unknown : ∀ r ∈ rules, r.protocol = 0) : known rules = [] := by
  rw [known, filter_eq_nil_iff]
  intro r member
  simp [unknown r member]

lemma known_cons (named : r.protocol ≠ 0) : known (r :: rules) = r :: known rules := by
  rw [known, filter_cons_of_pos (by simpa using named)]
  rfl

lemma known_append (rules : List PortRule) :
    known (rules ++ rest) = known rules ++ known rest := filter_append _ _

lemma mem_known : r ∈ known rules ↔ r ∈ rules ∧ r.protocol ≠ 0 := by simp [known]

/-- A list entry is found by its port. -/
lemma find_port (rest : List PortRule) (q : UInt16) :
    (((rest.map PortRule.value).reverse.find? (·.additionalUserValue == htons q)).map
      Uv16.userValue) = (rest.reverse.find? (·.port == q)).map PortRule.protocol := by
  rw [← map_reverse]
  induction rest.reverse with
  | nil => rfl
  | cons r others ih =>
    rw [map_cons]
    by_cases same : r.port = q
    · rw [find?_cons_of_pos (by simp [PortRule.value, same]),
        find?_cons_of_pos (by simp [same])]
      rfl
    · rw [find?_cons_of_neg (by simpa [PortRule.value, htons_inj] using same),
        find?_cons_of_neg (by simpa using same)]
      exact ih

lemma answers_of_known {q : UInt16} (member : r ∈ rules)
    (fits : r.Matches q) (same : r.protocol = protocol) :
    Answers rules q protocol := .inl ⟨r, member, fits, same⟩

/-- Unknown is the answer if every rule that matches is without a protocol. -/
lemma answers_zero_iff :
    Answers rules q 0 ↔ (∃ r ∈ rules, r.Matches q ∧ r.protocol = 0) ∨
      ∀ r ∈ known rules, ¬r.Matches q := by
  constructor
  · rintro (found | ⟨none, -⟩)
    · exact .inl found
    · exact .inr fun r member => none r (mem_known.mp member).1
  · intro found
    by_cases unknown : ∃ r ∈ rules, r.Matches q ∧ r.protocol = 0
    · exact .inl unknown
    · refine .inr ⟨fun r member fits => ?_, rfl⟩
      by_cases named : r.protocol = 0
      · exact unknown ⟨r, member, fits, named⟩
      · exact (found.resolve_left unknown) r (mem_known.mpr ⟨member, named⟩) fits

/-- Where neither slot matches nor any list entry is for `q`, only a rule for any
port in the list can match. -/
lemma unanswered_iff {r : PortRule} (misses : ¬r.Matches q)
    (misses' : ¬r'.Matches q) (absent : ∀ x ∈ rest, x.port ≠ q) (unnamed : Prop) :
    (unnamed ∨ ∀ x ∈ r :: r' :: known rest, ¬x.Matches q) ↔
      (∀ x ∈ (r :: r' :: known rest).drop 2, x.port ≠ 0) ∨
        (∃ x ∈ (r :: r' :: known rest).take 2, x.port = 0) ∨
        (∃ x ∈ r :: r' :: known rest, x.port = q) ∨ unnamed := by
  constructor
  · intro answered
    rcases answered with zero | unmatched
    · exact .inr (.inr (.inr zero))
    · exact .inl fun x member any => unmatched x (.tail _ (.tail _ member)) (.inl any)
  · intro reached
    rcases reached with later | ⟨x, member, any⟩ | ⟨x, member, same⟩ | zero
    · right
      intro x member
      rcases mem_cons.mp member with rfl | member
      · exact misses
      · rcases mem_cons.mp member with rfl | member
        · exact misses'
        · have listed := absent x (mem_known.mp member).1
          exact fun matched => matched.elim (later x member) listed
    · rcases mem_cons.mp member with rfl | member
      · exact absurd (.inl any) misses
      · obtain rfl := mem_singleton.mp member
        exact absurd (.inl any) misses'
    · rcases mem_cons.mp member with rfl | member
      · exact absurd (.inr same) misses
      · rcases mem_cons.mp member with rfl | member
        · exact absurd (.inr same) misses'
        · exact absurd same (absent x (mem_known.mp member).1)
    · exact .inl zero

/-- The answer of a node is right exactly if no rule for any port is lost in its
list. -/
lemma node_answers_iff (holds : Holds rules node) (q : UInt16) :
    Answers rules q (node.protocolAt (htons q)) ↔ AnyPortReached rules q := by
  cases holds with
  | @none _ slot unknown free =>
    have nothing := known_unknown unknown
    have zero : Node.protocolAt ⟨#v[slot, {}], []⟩ (htons q) = 0 := by
      rw [protocolAt_eq, free]
      split
      · rfl
      · exact if_pos (.inl rfl)
    refine iff_of_true ?_ (.inl ?_)
    · rw [zero, answers_zero_iff, nothing]
      exact .inr (by simp)
    · rw [nothing]
      simp
  | @one before after r slot unknown named unknown' free =>
    have single : known (before ++ r :: after) = [r] := by
      rw [known_append, known_unknown unknown, known_cons named, known_unknown unknown']
      rfl
    refine iff_of_true ?_ (.inl (by rw [single]; simp))
    rw [protocolAt_eq, free]
    by_cases fits : r.Matches q
    · rw [if_pos ((value_matches).mpr fits)]
      exact answers_of_known (by simp) fits rfl
    · have zero : (if slot.additionalUserValue = 0 ∨ slot.additionalUserValue = htons q then
          (0 : UInt16) else ((([] : List Uv16).find? (·.additionalUserValue == htons q)).map
            Uv16.userValue).getD 0) = 0 := by
        split <;> rfl
      rw [if_neg (mt value_matches.mp fits), zero, answers_zero_iff, single]
      exact .inr (by simpa using fits)
  | @more before between rest r r' unknown named unknown' named' =>
    have all : known (before ++ r :: (between ++ r' :: rest)) = r :: r' :: known rest := by
      rw [known_append, known_unknown unknown, known_cons named, known_append,
        known_unknown unknown', known_cons named']
      rfl
    rw [protocolAt_eq, find_port]
    unfold AnyPortReached
    rw [all]
    by_cases fits : r.Matches q
    · rw [if_pos ((value_matches).mpr fits)]
      apply iff_of_true (answers_of_known (by simp) fits rfl)
      rcases fits with any | same
      · exact .inr (.inl ⟨r, by simp, any⟩)
      · exact .inr (.inr (.inl ⟨r, by simp, same⟩))
    · rw [if_neg (mt value_matches.mp fits)]
      by_cases fits' : r'.Matches q
      · rw [if_pos ((value_matches).mpr fits')]
        apply iff_of_true (answers_of_known (by simp) fits' rfl)
        rcases fits' with any | same
        · exact .inr (.inl ⟨r', by simp, any⟩)
        · exact .inr (.inr (.inl ⟨r', by simp, same⟩))
      · rw [if_neg (mt value_matches.mp fits')]
        cases found : rest.reverse.find? (·.port == q) with
        | some x =>
          have member : x ∈ rest := mem_reverse.mp (mem_of_find?_eq_some found)
          have same : x.port = q := by simpa using find?_some found
          apply iff_of_true (answers_of_known (by simp [member]) (.inr same) rfl)
          by_cases unnamed : x.protocol = 0
          · exact .inr (.inr (.inr ⟨x, by simp [member], .inr same, unnamed⟩))
          · exact .inr (.inr (.inl ⟨x, by simp [mem_known, member, unnamed], same⟩))
        | none =>
          have absent : ∀ x ∈ rest, x.port ≠ q := by
            intro x member
            have none := find?_eq_none.mp found x (mem_reverse.mpr member)
            simpa using none
          show Answers _ q 0 ↔ _
          rw [answers_zero_iff, all]
          exact unanswered_iff fits fits' absent _

end

/-- The prefix and the rule that a call puts into the IPv4 tree. -/
def v4Entry : HostRule → Option (List Bool × PortRule)
  | .v4 address bits port protocolId => some (fillPrefix address bits 32, ⟨port, protocolId⟩)
  | .v6 .. => none

def v6Entry : HostRule → Option (List Bool × PortRule)
  | .v6 address bits port protocolId => some (fillPrefix address bits 128, ⟨port, protocolId⟩)
  | .v4 .. => none

/-- Rules added one after the other, each with or without memory for a list entry;
`none` if one was not added. -/
def addAll (m : Module) (calls : List (Bool × HostRule)) : Option Module :=
  calls.foldlM (fun m call => addHostIpSubprotocol call.1 m call.2) m

def enter (nodes : PrefixMap Node) (entry : List Bool × PortRule) : PrefixMap Node :=
  nodes.alter entry.1 fun node => Node.push entry.2.value (node.getD .new)

lemma add_enter {width maxbits : Nat} {tree after : PatriciaTree maxbits} {granted : Bool}
    {address : BitVec width} {bits : Nat} {port protocolId : UInt16}
    (added : tree.add granted address bits port protocolId = some after) :
    after.nodes = enter tree.nodes (fillPrefix address bits maxbits, ⟨port, protocolId⟩) := by
  obtain ⟨node, stored, rfl⟩ := map_eq_some_iff.mp added
  have pushed := storeRule_push ⟨port, protocolId⟩ stored
  rw [pushed]
  rfl

lemma addHost_enter {granted : Bool} {m after : Module} {rule : HostRule}
    (added : addHostIpSubprotocol granted m rule = some after) :
    after.numCustomProtocols = m.numCustomProtocols ∧
      after.protocols.v4.nodes = (v4Entry rule).toList.foldl enter m.protocols.v4.nodes ∧
      after.protocols.v6.nodes = (v6Entry rule).toList.foldl enter m.protocols.v6.nodes := by
  cases rule with
  | v4 address bits port protocolId =>
    obtain ⟨tree, entered, rfl⟩ := map_eq_some_iff.mp added
    exact ⟨rfl, add_enter entered, rfl⟩
  | v6 address bits port protocolId =>
    obtain ⟨tree, entered, rfl⟩ := map_eq_some_iff.mp added
    exact ⟨rfl, rfl, add_enter entered⟩

def v4Entries (calls : List (Bool × HostRule)) : List (List Bool × PortRule) :=
  calls.flatMap fun call => (v4Entry call.2).toList

def v6Entries (calls : List (Bool × HostRule)) : List (List Bool × PortRule) :=
  calls.flatMap fun call => (v6Entry call.2).toList

lemma addAll_enter {after : Module} (added : addAll m calls = some after) :
    after.numCustomProtocols = m.numCustomProtocols ∧
      after.protocols.v4.nodes = (v4Entries calls).foldl enter m.protocols.v4.nodes ∧
      after.protocols.v6.nodes = (v6Entries calls).foldl enter m.protocols.v6.nodes := by
  induction calls generalizing m with
  | nil =>
    cases added
    exact ⟨rfl, rfl, rfl⟩
  | cons call rest ih =>
    rw [addAll, foldlM_cons] at added
    obtain ⟨middle, first, added⟩ := bind_eq_some_iff.mp added
    obtain ⟨custom, v4, v6⟩ := addHost_enter first
    obtain ⟨custom', v4', v6'⟩ := ih added
    refine ⟨custom'.trans custom, ?_, ?_⟩
    · rw [v4', v4, v4Entries, v4Entries, flatMap_cons, foldl_append]
    · rw [v6', v6, v6Entries, v6Entries, flatMap_cons, foldl_append]

/-- The rules of one prefix, in order. -/
def rulesAt (entries : List (List Bool × PortRule)) (key : List Bool) : List PortRule :=
  (entries.filter (·.1 == key)).map (·.2)

lemma rulesAt_cons :
    rulesAt (entry :: entries) key =
      if entry.1 = key then entry.2 :: rulesAt entries key else rulesAt entries key := by
  unfold rulesAt
  split
  · next same =>
    rw [filter_cons_of_pos (by simpa using same), map_cons]
  · next same =>
    rw [filter_cons_of_neg (by simpa using same)]

lemma enter_nodes :
    entries.foldl enter nodes key =
      if rulesAt entries key = [] then nodes key
      else some ((rulesAt entries key).foldl (fun node rule => Node.push rule.value node)
        ((nodes key).getD .new)) := by
  induction entries generalizing nodes with
  | nil => rfl
  | cons entry rest ih =>
    rw [foldl_cons, ih, rulesAt_cons]
    by_cases same : entry.1 = key
    · have here : enter nodes entry key =
          some (Node.push entry.2.value ((nodes key).getD .new)) := by
        rw [← same]
        exact PrefixMap.alter_self _ _ _
      rw [if_pos same, if_neg (cons_ne_nil _ _), here]
      split
      · next none =>
        rw [none]
        rfl
      · rfl
    · have there : enter nodes entry key = nodes key :=
        PrefixMap.alter_of_ne _ _ (Ne.symm same)
      rw [if_neg same, there]

lemma bitsOf_length {width : Nat} {address : BitVec width} : (bitsOf address).length = width := by
  rw [bitsOf, length_map, length_range]

lemma fillPrefix_whole (address : BitVec width) :
    fillPrefix address width width = bitsOf address := by
  rw [fillPrefix, if_neg (Nat.lt_irrefl _), take_of_length_le (Nat.le_of_eq bitsOf_length)]

/-- Let the rules of one IPv4 prefix, among others and in any order, all have been
added, and let it be the longest one of an address that is looked up at all. The
answer for a port is right exactly if no rule for any port among those in the list
is the only one that matches. -/
theorem network_port_answers_iff (m after : Module) (calls : List (Bool × HostRule))
    (added : addAll m calls = some after) (key : List Bool) (pin : BitVec 32) (q : UInt16)
    (asked : m.numCustomProtocols ≠ 0 ∨ isPublicIpv4 pin = true)
    (unset : m.protocols.v4.nodes key = none) (some : rulesAt (v4Entries calls) key ≠ [])
    (within : key <+: bitsOf pin)
    (longest : ∀ other, key.length < other.length → other <+: bitsOf pin →
      after.protocols.v4.nodes other = none) :
    Answers (rulesAt (v4Entries calls) key) q (networkPortPtreeMatch after pin (htons q)) ↔
      AnyPortReached (rulesAt (v4Entries calls) key) q := by
  obtain ⟨custom, v4, -⟩ := addAll_enter added
  have node : after.protocols.v4.nodes key = .some (nodeOf (rulesAt (v4Entries calls) key)) := by
    rw [v4, enter_nodes, if_neg some, unset]
    rfl
  have found := PrefixMap.best_of_longest within (by rw [node]; exact some_ne_none _) longest
  have looked : ¬(after.numCustomProtocols == 0 && !isPublicIpv4 pin) = true := by
    rw [custom]
    rcases asked with defined | shared
    · simp [defined]
    · simp [shared]
  have answer : networkPortPtreeMatch after pin (htons q) =
      (nodeOf (rulesAt (v4Entries calls) key)).protocolAt (htons q) := by
    unfold networkPortPtreeMatch PatriciaTree.maxbits
    rw [if_neg looked, fillPrefix_whole, found, node]
  rw [answer]
  exact node_answers_iff (holds_nodeOf _) q

/-- `8.8.8.0/24`. -/
def sampleNet (port protocolId : UInt16) : Bool × HostRule :=
  (true, .v4 0x08080800 24 port protocolId)

def sampleKey : List Bool := fillPrefix (0x08080800 : BitVec 32) 24 32

/-- The third rule is for any port, and the first one for the port asked. -/
def sampleRules : List (Bool × HostRule) := [sampleNet 80 7, sampleNet 443 91, sampleNet 0 5]

variable {after : Module}

lemma sampleRules_longest (added : addAll ⟨1, {}⟩ sampleRules = some after)
    (longer : sampleKey.length < other.length) :
    after.protocols.v4.nodes other = none := by
  have differ : ¬sampleKey = other := by
    intro same
    rw [same] at longer
    exact Nat.lt_irrefl _ longer
  have none : rulesAt (v4Entries sampleRules) other = [] := by
    show rulesAt [(sampleKey, ⟨80, 7⟩), (sampleKey, ⟨443, 91⟩), (sampleKey, ⟨0, 5⟩)] other = []
    rw [rulesAt_cons, rulesAt_cons, rulesAt_cons, if_neg differ, if_neg differ, if_neg differ]
    rfl
  rw [(addAll_enter added).2.1, enter_nodes, if_pos none]
  rfl

theorem network_port_answers_iff_sample :
    ∃ after, addAll ⟨1, {}⟩ sampleRules = some after ∧
      Answers (rulesAt (v4Entries sampleRules) sampleKey) 80
        (networkPortPtreeMatch after 0x08080808 (htons 80)) := by
  obtain ⟨after, added⟩ : ∃ after, addAll ⟨1, {}⟩ sampleRules = some after := ⟨_, rfl⟩
  refine ⟨after, added, (network_port_answers_iff ⟨1, {}⟩ after sampleRules added sampleKey
    0x08080808 80 (.inl (by decide)) rfl (by decide) (by decide)
    fun other longer _ => sampleRules_longest added longer).mpr ?_⟩
  exact .inr (.inr (.inl ⟨⟨80, 7⟩, by decide, rfl⟩))

/-- For another port the rule for any port is not found. -/
theorem any_port_rule_lost :
    ∃ after, addAll ⟨1, {}⟩ sampleRules = some after ∧
      networkPortPtreeMatch after 0x08080808 (htons 22) = 0 ∧
      ¬Answers (rulesAt (v4Entries sampleRules) sampleKey) 22
        (networkPortPtreeMatch after 0x08080808 (htons 22)) := by
  have lost : ((addAll ⟨1, {}⟩ sampleRules).map fun after =>
      decide (networkPortPtreeMatch after 0x08080808 (htons 22) = 0 ∧
        ¬Answers (rulesAt (v4Entries sampleRules) sampleKey) 22
          (networkPortPtreeMatch after 0x08080808 (htons 22)))) = some true := by
    decide +kernel
  obtain ⟨after, added, wrong⟩ := map_eq_some_iff.mp lost
  exact ⟨after, added, of_decide_eq_true wrong⟩

/-- What the rules say of a prefix: the first protocol named for it. -/
def configured (entries : List (List Bool × PortRule)) : PrefixMap UInt16 := fun key =>
  if rulesAt entries key = [] then none
  else some (((known (rulesAt entries key)).head?.map PortRule.protocol).getD 0)

variable {rules : List PortRule}

lemma first_slot (holds : Holds rules node) :
    node.uv16[0].userValue = ((known rules).head?.map PortRule.protocol).getD 0 := by
  cases holds with
  | none unknown free =>
    rw [known_unknown unknown]
    exact free
  | one unknown named unknown' free =>
    rw [known_append, known_unknown unknown, known_cons named]
    rfl
  | more unknown named unknown' named' =>
    rw [known_append, known_unknown unknown, known_cons named]
    rfl

/-- Without ports in its rules a node answers with its first slot. -/
lemma portless_protocolAt (holds : Holds rules node) (portless : ∀ r ∈ rules, r.port = 0) :
    node.protocolAt port = node.uv16[0].userValue := by
  cases holds with
  | @none _ slot unknown free =>
    rw [protocolAt_eq]
    split
    · rfl
    · rw [if_pos (.inl rfl)]
      exact free.symm
  | @one before after r slot unknown named unknown' free =>
    have any : r.value.additionalUserValue = 0 := htons_eq_zero.mpr (portless r (by simp))
    rw [protocolAt_eq, if_pos (.inl any)]
    rfl
  | @more before between rest r r' unknown named unknown' named' =>
    have any : r.value.additionalUserValue = 0 := htons_eq_zero.mpr (portless r (by simp))
    rw [protocolAt_eq, if_pos (.inl any)]
    rfl

/-- A lookup that answers with the first protocol of a node. -/
lemma entered_best (entries : List (List Bool × PortRule)) (answer : Node → UInt16)
    (same : ∀ key, answer (nodeOf (rulesAt entries key)) =
      (nodeOf (rulesAt entries key)).uv16[0].userValue) (query : List Bool) :
    ((entries.foldl enter .empty).best query).map answer = (configured entries).best query := by
  rw [← PrefixMap.best_map]
  congr 1
  funext key
  rw [enter_nodes, configured]
  split
  · rfl
  · exact congrArg some ((same key).trans (first_slot (holds_nodeOf _)))

/-- The protocol of the longest IPv6 prefix in the rules that has an address. -/
def longestV6 (calls : List (Bool × HostRule)) (pin : BitVec 128) : UInt16 :=
  ((configured (v6Entries calls)).best (bitsOf pin)).getD 0

variable {calls : List (Bool × HostRule)}

lemma networkPortPtree6Match_eq (added : addAll ⟨custom, {}⟩ calls = some after)
    (portless : ∀ entry ∈ v6Entries calls, entry.2.port = 0) :
    networkPortPtree6Match after pin port = longestV6 calls pin := by
  have any : ∀ key, ∀ r ∈ rulesAt (v6Entries calls) key, r.port = 0 := by
    intro key r member
    obtain ⟨entry, within, rfl⟩ := mem_map.mp member
    exact portless entry (mem_filter.mp within).1
  have best := entered_best (v6Entries calls) (·.protocolAt port)
    (fun key => portless_protocolAt (holds_nodeOf _) (any key)) (bitsOf pin)
  unfold networkPortPtree6Match PatriciaTree.maxbits longestV6
  rw [fillPrefix_whole, (addAll_enter added).2.2, ← best]
  cases ((v6Entries calls).foldl enter .empty).best (bitsOf pin) <;> rfl

/-- The lookup without a port does not depend on the address: it answers with the
IPv4 rule for all addresses. -/
lemma networkPtree6Match_eq (added : addAll ⟨custom, {}⟩ calls = some after) :
    networkPtree6Match after pin = (configured (v4Entries calls) []).getD 0 := by
  have best : (((v4Entries calls).foldl enter .empty).best []).map (·.uv16[0].userValue) =
      configured (v4Entries calls) [] :=
    entered_best (v4Entries calls) (·.uv16[0].userValue) (fun _ => rfl) []
  have none : fillPrefix pin 128 32 = [] := rfl
  unfold networkPtree6Match PatriciaTree.maxbits
  rw [none, (addAll_enter added).2.1, ← best]
  cases ((v4Entries calls).foldl enter .empty).best [] <;> rfl

/-- For IPv6 rules without ports the lookup without a port gives the protocol of the
longest IPv6 prefix, as the one with a port does, exactly if that happens to be the
protocol of the IPv4 rule for all addresses, or both are unknown. -/
theorem network6_longest_iff (custom : Nat) (calls : List (Bool × HostRule)) (after : Module)
    (added : addAll ⟨custom, {}⟩ calls = some after)
    (portless : ∀ entry ∈ v6Entries calls, entry.2.port = 0) (pin : BitVec 128) :
    (networkPtree6Match after pin = longestV6 calls pin ∧
      ∀ port, networkPtree6Match after pin = networkPortPtree6Match after pin port) ↔
      (configured (v4Entries calls) []).getD 0 = longestV6 calls pin := by
  rw [networkPtree6Match_eq added]
  refine ⟨And.left, fun same => ⟨same, fun port => ?_⟩⟩
  rw [networkPortPtree6Match_eq added portless]
  exact same

/-- `2001:db8::/32` for IPv6, and all of IPv4. -/
def sampleV6 : List (Bool × HostRule) :=
  [(true, .v6 0x20010db8000000000000000000000000 32 0 7), (true, .v4 0 0 0 7)]

theorem network6_longest_iff_sample :
    ∃ after, addAll ⟨1, {}⟩ sampleV6 = some after ∧
      networkPtree6Match after 0x20010db8000000000000000000000001 = 7 := by
  obtain ⟨after, added⟩ : ∃ after, addAll ⟨1, {}⟩ sampleV6 = some after := ⟨_, rfl⟩
  have longest : longestV6 sampleV6 0x20010db8000000000000000000000001 = 7 := by decide +kernel
  have agrees := (network6_longest_iff 1 sampleV6 after added (by decide)
    0x20010db8000000000000000000000001).mpr (by rw [longest]; decide +kernel)
  exact ⟨after, added, agrees.1.trans longest⟩

/-- With the IPv6 rule alone the lookup without a port finds nothing. -/
theorem network6_asks_v4 :
    ∃ after, addAll ⟨1, {}⟩ (sampleV6.take 1) = some after ∧
      networkPtree6Match after 0x20010db8000000000000000000000001 = 0 ∧
      longestV6 (sampleV6.take 1) 0x20010db8000000000000000000000001 = 7 ∧
      networkPortPtree6Match after 0x20010db8000000000000000000000001 (htons 443) = 7 := by
  have differ : ((addAll ⟨1, {}⟩ (sampleV6.take 1)).map fun after =>
      decide (networkPtree6Match after 0x20010db8000000000000000000000001 = 0 ∧
        longestV6 (sampleV6.take 1) 0x20010db8000000000000000000000001 = 7 ∧
        networkPortPtree6Match after 0x20010db8000000000000000000000001 (htons 443) = 7)) =
      some true := by
    decide +kernel
  obtain ⟨after, added, differs⟩ := map_eq_some_iff.mp differ
  exact ⟨after, added, of_decide_eq_true differs⟩

end Ndpi.Guarantees.NetworkRules
