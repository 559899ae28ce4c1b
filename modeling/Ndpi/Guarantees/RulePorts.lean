import Ndpi.Guarantees.UserProtocols
import Ndpi.Lib.CString
import Ndpi.Lib.Lines
import Ndpi.Lib.Slots

/-!
# The ports of a custom rule

The ports of a rule go to the table of default ports of its protocol, which has five
places for each transport, a place with port 0 being free. The numbers are narrowed to
16 bits. `load_default_ports` reads the places that are not free. The ports of a rule
are covered, and no others, exactly if the numbers are ports and there are enough
places or the ports without a place are covered anyway.
-/
namespace Ndpi.Guarantees.RulePorts
open Lib Source.CustomRules Source.DefaultPorts List
open Lib.CString (chars)

/-- A number, or two with a dash between them. -/
def Decimal (value : Text) : Prop :=
  (value ≠ [] ∧ ∀ c ∈ value, c.isDigit = true) ∨
    ∃ low high, value = low ++ '-' :: high ∧ (low ≠ [] ∧ ∀ c ∈ low, c.isDigit = true) ∧
      high ≠ [] ∧ ∀ c ∈ high, c.isDigit = true

/-- The first and the last port that are written. -/
def numbers (value : Text) : Nat × Nat :=
  match splitAtFirst '-' value with
  | some (low, high) => (digitsNumber low, digitsNumber high)
  | none => (digitsNumber value, digitsNumber value)

/-- The values of the elements for a transport. -/
def portValues (tcp : Bool) (elements : List Text) : List Text :=
  elements.filterMap fun attr =>
    if (if tcp then ['t', 'c', 'p', ':'] else ['u', 'd', 'p', ':']).isPrefixOf attr then
      some (attr.drop 4)
    else none

def written (tcp : Bool) (elements : List Text) : List (Nat × Nat) :=
  (portValues tcp elements).map numbers

/-- The table of default ports of a protocol; one that is not registered has none. -/
def portTable (tcp : Bool) (m : Module) (id : Nat) : List PortRange :=
  match m.protoDefaults[id]? with
  | some d => (if tcp then d.tcpDefaultPorts else d.udpDefaultPorts).toList
  | none => []

/-- A port that `load_default_ports` finds in a table. -/
def Covered (table : List PortRange) (port : Nat) : Prop :=
  ∃ range ∈ table, range.portLow ≠ 0 ∧ port ∈ range.ports

instance (table : List PortRange) (port : Nat) : Decidable (Covered table port) :=
  inferInstanceAs (Decidable (∃ range ∈ table, range.portLow ≠ 0 ∧ port ∈ range.ports))

/-- A port between two numbers. -/
def Within (range : Nat × Nat) (port : Nat) : Prop := range.1 ≤ port ∧ port ≤ range.2

/-- The ports that are written are covered, and no others are added. -/
def CoversExactly (before after : List PortRange) (written : List (Nat × Nat)) : Prop :=
  (∀ range ∈ written, ∀ port, Within range port → Covered after port) ∧
    ∀ port, Covered after port → Covered before port ∨ ∃ range ∈ written, Within range port

/-- A number of a range as it is stored. -/
def narrow (number : Nat) : Nat := min number 18446744073709551615 % 65536

def freePlaces (table : List PortRange) : Nat := 5 - table.countP (·.portLow ≠ 0)

/-- The ranges that need a place. -/
def claiming (written : List (Nat × Nat)) : List (Nat × Nat) :=
  written.filter fun range => narrow range.1 ≠ 0

/-- Every number that is written is a port; a range without a place has only ports that
are covered before or by a range with a place; and a range the wrong way round, if it
has a place, covers when narrowed only ports that are covered before or written. -/
def PortsFit (before : List PortRange) (written : List (Nat × Nat)) : Prop :=
  (∀ range ∈ written, ∀ port, Within range port → 1 ≤ port ∧ port ≤ 65535) ∧
    (∀ range ∈ (claiming written).drop (freePlaces before), ∀ port, Within range port →
      Covered before port ∨ ∃ other ∈ (claiming written).take (freePlaces before),
        Within (narrow other.1, narrow other.2) port) ∧
    ∀ range ∈ (claiming written).take (freePlaces before), range.2 < range.1 →
      ∀ port, Within (narrow range.1, narrow range.2) port →
        Covered before port ∨ ∃ other ∈ written, Within other port

/-- The id of the protocol that a rule is for. -/
def ruleId (m : Module) (proto : RuleProtocol) : Nat :=
  if getProtoByName m proto.name = 0 then m.numSupportedProtocols
  else getProtoByName m proto.name

section

variable {digits : Text}

lemma digit_not_space (digit : c.isDigit = true) : isspace c = false := by
  unfold isspace
  rw [decide_eq_false_iff_not]
  intro member
  simp only [mem_cons, not_mem_nil, or_false] at member
  obtain rfl | rfl | rfl | rfl | rfl | rfl := member <;> exact absurd digit (by decide)

/-- A number and what follows it. -/
lemma scanNumber_digits (nonempty : digits ≠ []) (all : ∀ c ∈ digits, c.isDigit = true)
    (stop : ∀ c ∈ rest.head?, c.isDigit = false) :
    scanNumber (digits ++ rest) = (false, digits, rest) := by
  obtain ⟨first, more, rfl⟩ := exists_cons_of_ne_nil nonempty
  have digit := all first mem_cons_self
  have start : (first :: more ++ rest).dropWhile isspace = first :: more ++ rest := by
    rw [cons_append, dropWhile_cons_of_neg]
    rw [digit_not_space digit]
    decide
  have minus : first ≠ '-' := by
    rintro rfl
    exact absurd digit (by decide)
  have plus : first ≠ '+' := by
    rintro rfl
    exact absurd digit (by decide)
  have unsigned : ¬ ((first :: more ++ rest).head? = some '-' ∨
      (first :: more ++ rest).head? = some '+') := by
    simp [minus, plus]
  have taken : (first :: more ++ rest).takeWhile Char.isDigit = first :: more := by
    rw [takeWhile_append_of_pos all]
    cases rest with
    | nil => simp
    | cons c rest => rw [takeWhile_cons_of_neg (by simp [stop c rfl]), append_nil]
  have dropped : (first :: more ++ rest).dropWhile Char.isDigit = rest := by
    rw [dropWhile_append_of_pos all]
    cases rest with
    | nil => rfl
    | cons c rest => rw [dropWhile_cons_of_neg (by simp [stop c rfl])]
  unfold scanNumber
  dsimp only
  rw [start, if_neg unsigned, taken, dropped]
  simp [minus]

lemma strtoll_digits (nonempty : digits ≠ []) (all : ∀ c ∈ digits, c.isDigit = true) :
    (strtoll digits).1 = ((min (digitsNumber digits) 9223372036854775807 : Nat) : Int) := by
  have scanned :=
    scanNumber_digits nonempty all (by simp : ∀ c ∈ ([] : Text).head?, c.isDigit = false)
  rw [append_nil] at scanned
  unfold strtoll
  rw [scanned]
  exact (Nat.cast_min _ _).symm

lemma scanUnsigned_digits (nonempty : digits ≠ []) (all : ∀ c ∈ digits, c.isDigit = true)
    (stop : ∀ c ∈ rest.head?, c.isDigit = false) :
    ∃ number, scanUnsigned (digits ++ rest) = some (number, rest) ∧
      (UInt16.ofNat number).toNat = narrow (digitsNumber digits) := by
  unfold scanUnsigned narrow
  rw [scanNumber_digits nonempty all stop]
  dsimp only
  rw [if_neg nonempty]
  refine ⟨_, rfl, ?_⟩
  rw [UInt16.toNat_ofNat']
  split
  · next large =>
    rw [Nat.min_eq_right (Nat.le_of_lt large)]
    decide
  · next large =>
    rw [Nat.min_eq_left (Nat.le_of_not_lt large)]
    unfold wrap32
    simp only [Bool.false_eq_true, if_false]
    omega

lemma notMem_of_digits (all : ∀ c ∈ digits, c.isDigit = true) : '-' ∉ digits :=
  fun member => absurd (all '-' member) (by decide)

end

/-- What is stored for a single number. -/
lemma elementPorts_single (nonempty : value ≠ []) (all : ∀ c ∈ value, c.isDigit = true) :
    numbers value = (digitsNumber value, digitsNumber value) ∧
      (elementPorts value).portLow.toNat = min (digitsNumber value) 9223372036854775807 % 65536 ∧
      (elementPorts value).portHigh.toNat = min (digitsNumber value) 9223372036854775807 % 65536 := by
  have scanned : ∃ number, scanUnsigned value = some (number, []) := by
    obtain ⟨number, read, -⟩ := scanUnsigned_digits nonempty all
      (by simp : ∀ c ∈ ([] : Text).head?, c.isDigit = false)
    rw [append_nil] at read
    exact ⟨number, read⟩
  obtain ⟨number, read⟩ := scanned
  have stored : elementPorts value =
      ⟨UInt16.ofInt (strtoll value).1, UInt16.ofInt (strtoll value).1, 1⟩ := by
    unfold elementPorts
    rw [read]
  have single : (UInt16.ofInt (strtoll value).1).toNat =
      min (digitsNumber value) 9223372036854775807 % 65536 := by
    rw [strtoll_digits nonempty all]
    dsimp only [UInt16.ofInt]
    rw [UInt16.toNat_ofNat']
    omega
  refine ⟨?_, ?_, ?_⟩
  · unfold numbers splitAtFirst
    rw [if_neg (notMem_of_digits all)]
  · rw [stored]
    exact single
  · rw [stored]
    exact single

/-- What is stored for two. -/
lemma elementPorts_range (some : low ≠ []) (all : ∀ c ∈ low, c.isDigit = true)
    (some' : high ≠ []) (all' : ∀ c ∈ high, c.isDigit = true) :
    numbers (low ++ '-' :: high) = (digitsNumber low, digitsNumber high) ∧
      (elementPorts (low ++ '-' :: high)).portLow.toNat = narrow (digitsNumber low) ∧
      (elementPorts (low ++ '-' :: high)).portHigh.toNat = narrow (digitsNumber high) := by
  obtain ⟨first, read, firstValue⟩ := scanUnsigned_digits some all
    (by simp : ∀ c ∈ ('-' :: high).head?, c.isDigit = false)
  obtain ⟨last, read', lastValue⟩ := scanUnsigned_digits some' all'
    (by simp : ∀ c ∈ ([] : Text).head?, c.isDigit = false)
  rw [append_nil] at read'
  have stored : elementPorts (low ++ '-' :: high) =
      ⟨UInt16.ofNat first, UInt16.ofNat last, 1⟩ := by
    simp [elementPorts, read, read']
  refine ⟨?_, ?_, ?_⟩
  · unfold numbers splitAtFirst
    rw [if_pos (by simp), takeWhile_ne_append (notMem_of_digits all)]
    dsimp only
    rw [drop_append, drop_of_length_le (Nat.le_succ _), Nat.add_sub_cancel_left]
    rfl
  · rw [stored]
    exact firstValue
  · rw [stored]
    exact lastValue

lemma narrow_of_le (port : number ≤ 65535) : narrow number = number := by
  unfold narrow
  omega

/-- Unless it is too large a number is stored as it is, and a range the wrong way round
as its narrowed ends. -/
lemma elementPorts_narrow (decimal : Decimal value)
    (fits : (numbers value).1 ≤ (numbers value).2 → (numbers value).2 ≤ 65535) :
    (elementPorts value).portLow.toNat = narrow (numbers value).1 ∧
      (elementPorts value).portHigh.toNat = narrow (numbers value).2 := by
  obtain ⟨some, all⟩ | ⟨low, high, rfl, ⟨some, all⟩, some', all'⟩ := decimal
  · obtain ⟨number, first, last⟩ := elementPorts_single some all
    rw [number] at fits ⊢
    have port := fits (le_refl _)
    rw [first, last, narrow_of_le port]
    omega
  · obtain ⟨number, first, last⟩ := elementPorts_range some all some' all'
    rw [number]
    exact ⟨first, last⟩

lemma mem_ports (range : PortRange) :
    port ∈ range.ports ↔ range.portLow.toNat ≤ port ∧ port ≤ range.portHigh.toNat := by
  unfold PortRange.ports
  rw [mem_range'_1]
  omega

lemma Covered.port {table : List PortRange} {port : Nat} (covered : Covered table port) :
    1 ≤ port ∧ port ≤ 65535 := by
  obtain ⟨range, -, used, member⟩ := covered
  rw [mem_ports] at member
  have positive : range.portLow.toNat ≠ 0 := fun zero => used (UInt16.toNat.inj zero)
  have most := range.portHigh.toNat_lt
  omega

/-- The places with port 0 are free. -/
def isFree (range : PortRange) : Bool := range.portLow == 0

lemma isFree_eq (range : PortRange) : isFree range = decide (range.portLow.toNat = 0) := by
  unfold isFree
  by_cases zero : range.portLow = 0
  · rw [zero]
    rfl
  · have other : range.portLow.toNat ≠ 0 := fun same => zero (UInt16.toNat.inj same)
    rw [beq_eq_false_iff_ne.mpr zero, decide_eq_false other]

lemma storePorts_toList (ports) (range : PortRange) :
    (storePorts ports range).toList = fill isFree ports.toList range := by
  unfold storePorts
  cases found : (List.finRange 5).find? fun j => ports[j].portLow == 0 with
  | none =>
    rw [find?_eq_none] at found
    refine (fill_full isFree ?_ range).symm
    rw [countP_eq_zero]
    intro slot member
    obtain ⟨j, bound, rfl⟩ := mem_iff_getElem.mp member
    rw [Vector.length_toList] at bound
    exact found ⟨j, bound⟩ (mem_finRange _)
  | some j =>
    obtain ⟨zero, i, bound, same, earlier⟩ := find?_eq_some_iff_getElem.mp found
    rw [getElem_finRange] at same
    have index : i = j := congrArg Fin.val same
    have within : (j : Nat) < ports.toList.length := by
      rw [Vector.length_toList]
      exact j.isLt
    have place : ports.toList.findIdx isFree = j := by
      refine (findIdx_eq within).mpr ⟨zero, fun k less => ?_⟩
      have tested := earlier k (index.symm ▸ less)
      rw [getElem_finRange] at tested
      simpa [isFree] using tested
    rw [fill_eq_set, place]
    exact Vector.toList_set j.isLt

/-- The free places of a table that has all its places. -/
lemma countP_isFree (size : table.length = 5) : table.countP isFree = freePlaces table := by
  unfold freePlaces
  have both := length_eq_countP_add_countP isFree (l := table)
  have used : table.countP (fun range => ¬ isFree range = true) =
      table.countP (·.portLow ≠ 0) := by
    refine countP_congr fun range _ => ?_
    simp [isFree]
  omega

/-- What is covered after some ranges are stored. -/
lemma covered_stored (ranges : List PortRange) :
    Covered (ranges.foldl (fill isFree) table) port ↔
      Covered table port ∨
        ∃ range ∈ (ranges.filter (!isFree ·)).take (table.countP isFree), port ∈ range.ports := by
  unfold Covered
  constructor
  · rintro ⟨range, member, used, inside⟩
    have taken : isFree range = false := by simpa [isFree] using used
    obtain old | new := (mem_foldl_fill isFree table ranges taken).mp member
    · exact .inl ⟨range, old, used, inside⟩
    · exact .inr ⟨range, new, inside⟩
  · rintro (⟨range, member, used, inside⟩ | ⟨range, member, inside⟩)
    · have taken : isFree range = false := by simpa [isFree] using used
      exact ⟨range, (mem_foldl_fill isFree table ranges taken).mpr (.inl member), used, inside⟩
    · have taken : isFree range = false := by
        simpa using (mem_filter.mp (mem_of_mem_take member)).2
      refine ⟨range, (mem_foldl_fill isFree table ranges taken).mpr (.inr member), ?_, inside⟩
      simpa [isFree] using taken

section

variable (env : RuleEnv) (id category breed : Nat)

lemma portTable_storeElementPorts (range : PortRange) :
    portTable tcp (storeElementPorts m id which range) id =
      if which = tcp then fill isFree (portTable tcp m id) range else portTable tcp m id := by
  unfold portTable storeElementPorts
  rw [getElem?_modify_eq]
  cases m.protoDefaults[id]? with
  | none => cases which <;> cases tcp <;> rfl
  | some d => cases which <;> cases tcp <;> simp [storePorts_toList]

/-- An element is one for ports by what it begins with. -/
lemma parseElement_ports_iff {range : PortRange} :
    parseElement attr = .ports tcp range ↔
      (if tcp then ['t', 'c', 'p', ':'] else ['u', 'd', 'p', ':']).isPrefixOf attr = true ∧
        elementPorts (attr.drop 4) = range := by
  unfold parseElement
  by_cases first : ['t', 'c', 'p', ':'].isPrefixOf attr = true
  · obtain ⟨rest, rfl⟩ := isPrefixOf_iff_prefix.mp first
    cases tcp <;> simp [List.isPrefixOf]
  by_cases second : ['u', 'd', 'p', ':'].isPrefixOf attr = true
  · rw [if_neg first, if_pos second]
    cases tcp <;> simp [first, second]
  · rw [if_neg first, if_neg second]
    refine iff_of_false ?_ (by cases tcp <;> simp [first, second])
    repeat' split
    all_goals exact Element.noConfusion

lemma portValues_cons :
    portValues tcp (attr :: rest) =
      if parseElement attr = .ports tcp (elementPorts (attr.drop 4)) then
        attr.drop 4 :: portValues tcp rest
      else portValues tcp rest := by
  simp only [parseElement_ports_iff, and_true, portValues, filterMap_cons]
  split <;> simp_all

/-- The table of a protocol after the elements of a rule that is accepted. -/
lemma handleElements_ports
    (accepted : (moduleOnly env).handleElements id category breed place m elements = (0, m')) :
    portTable tcp m' id =
      ((portValues tcp elements).map elementPorts).foldl (fill isFree) (portTable tcp m id) := by
  induction elements generalizing m place with
  | nil =>
    cases accepted
    rfl
  | cons attr rest ih =>
    dsimp only [RuleTables.handleElements, moduleOnly] at accepted
    rw [handleElement] at accepted
    rw [portValues_cons]
    cases parsed : parseElement attr with
    | ports which range =>
      rw [parsed] at accepted
      obtain ⟨-, rfl⟩ := parseElement_ports_iff.mp parsed
      rw [ih accepted, portTable_storeElementPorts]
      by_cases same : which = tcp <;> simp [same]
    | _ =>
      -- any other element leaves the table alone
      rw [parsed] at accepted
      dsimp only at accepted
      rw [if_neg Element.noConfusion]
      split at accepted
      · exact ih accepted
      · next failed => exact absurd (congrArg Prod.fst accepted) failed

end

section

variable {before after : List PortRange} {values : List Text}

/-- The ranges that are given a place, by the numbers that are written. -/
lemma stored_iff (narrowed : ∀ value ∈ values,
      (elementPorts value).portLow.toNat = narrow (numbers value).1 ∧
        (elementPorts value).portHigh.toNat = narrow (numbers value).2) :
    (∃ range ∈ ((values.map elementPorts).filter (!isFree ·)).take places, port ∈ range.ports) ↔
      ∃ range ∈ (claiming (values.map numbers)).take places,
        Within (narrow range.1, narrow range.2) port := by
  have claims : values.filter (fun value => !isFree (elementPorts value)) =
      values.filter (fun value => narrow (numbers value).1 ≠ 0) := by
    refine filter_congr fun value member => ?_
    rw [← (narrowed value member).1, isFree_eq, decide_not]
  unfold claiming
  rw [filter_map, filter_map, ← map_take, ← map_take]
  simp only [mem_map, Function.comp_def, claims]
  constructor
  · rintro ⟨range, ⟨value, member, rfl⟩, inside⟩
    have listed := (mem_filter.mp (mem_of_mem_take member)).1
    rw [mem_ports, (narrowed value listed).1, (narrowed value listed).2] at inside
    exact ⟨numbers value, ⟨value, member, rfl⟩, inside⟩
  · rintro ⟨range, ⟨value, member, rfl⟩, inside⟩
    have listed := (mem_filter.mp (mem_of_mem_take member)).1
    refine ⟨elementPorts value, ⟨value, member, rfl⟩, ?_⟩
    rw [mem_ports, (narrowed value listed).1, (narrowed value listed).2]
    exact inside

/-- A range that is written the right way round, of ports only, is stored as it is. -/
lemma narrow_range {range : Nat × Nat} (ordered : range.1 ≤ range.2)
    (ports : ∀ port, Within range port → 1 ≤ port ∧ port ≤ 65535) :
    (narrow range.1, narrow range.2) = range ∧ narrow range.1 ≠ 0 := by
  have first := ports range.1 ⟨le_refl _, ordered⟩
  have last := ports range.2 ⟨ordered, le_refl _⟩
  rw [narrow_of_le first.2, narrow_of_le last.2]
  exact ⟨rfl, by omega⟩

lemma coversExactly_iff (decimal : ∀ value ∈ values, Decimal value)
    (stored : ∀ port, Covered after port ↔ Covered before port ∨
      ∃ range ∈ ((values.map elementPorts).filter (!isFree ·)).take (freePlaces before),
        port ∈ range.ports) :
    CoversExactly before after (values.map numbers) ↔ PortsFit before (values.map numbers) := by
  by_cases ports : ∀ range ∈ values.map numbers, ∀ port, Within range port →
      1 ≤ port ∧ port ≤ 65535
  · have narrowed : ∀ value ∈ values,
        (elementPorts value).portLow.toNat = narrow (numbers value).1 ∧
          (elementPorts value).portHigh.toNat = narrow (numbers value).2 := by
      intro value member
      refine elementPorts_narrow (decimal value member) fun ordered => ?_
      exact (ports _ (mem_map_of_mem member) _ ⟨ordered, Nat.le_refl _⟩).2
    have listed : ∀ {range}, range ∈ claiming (values.map numbers) → range ∈ values.map numbers :=
      fun member => (mem_filter.mp member).1
    simp only [stored_iff narrowed] at stored
    constructor
    · rintro ⟨covers, others⟩
      refine ⟨ports, fun range member port within => ?_, fun range member turned port within => ?_⟩
      · exact (stored port).mp (covers range (listed (mem_of_mem_drop member)) port within)
      · exact others port ((stored port).mpr (.inr ⟨range, member, within⟩))
    · rintro ⟨-, left, turned⟩
      refine ⟨fun range member port within => ?_, fun port covered => ?_⟩
      · have ordered : range.1 ≤ range.2 := Nat.le_trans within.1 within.2
        obtain ⟨same, claims⟩ := narrow_range ordered (ports range member)
        have claimed : range ∈ claiming (values.map numbers) :=
          mem_filter.mpr ⟨member, by simpa using claims⟩
        rw [← take_append_drop (freePlaces before) (claiming (values.map numbers)),
          mem_append] at claimed
        obtain placed | homeless := claimed
        · refine (stored port).mpr (.inr ⟨range, placed, ?_⟩)
          rwa [same]
        · exact (stored port).mpr (left range homeless port within)
      · obtain old | ⟨range, placed, within⟩ := (stored port).mp covered
        · exact .inl old
        · have member := listed (mem_of_mem_take placed)
          by_cases ordered : range.1 ≤ range.2
          · rw [(narrow_range ordered (ports range member)).1] at within
            exact .inr ⟨range, member, within⟩
          · exact turned range placed (Nat.lt_of_not_le ordered) port within
  · refine iff_of_false (fun covers => ports fun range member port within => ?_)
      fun fit => ports fit.1
    exact (covers.1 range member port within).port

end

lemma portTable_known {id : Nat} (known : id < m.protoDefaults.length) :
    (portTable tcp m id).length = 5 := by
  unfold portTable
  rw [getElem?_eq_getElem known]
  exact Vector.length_toList

/-- The table of the protocol of a rule that is accepted, and the ranges added to it. -/
lemma accepted_stored
    (accepted : (moduleOnly env).handleProtocolRule env m elements proto = (0, m')) (port : Nat) :
    Covered (portTable tcp m' (ruleId m proto)) port ↔
      Covered (portTable tcp m (ruleId m proto)) port ∨
        ∃ range ∈ (((portValues tcp elements).map elementPorts).filter (!isFree ·)).take
          (freePlaces (portTable tcp m (ruleId m proto))), port ∈ range.ports := by
  unfold ruleId
  dsimp only [RuleTables.handleProtocolRule, moduleOnly] at accepted
  by_cases new : getProtoByName m proto.name = 0
  · rw [if_pos new] at accepted ⊢
    have absent : portTable tcp m m.numSupportedProtocols = [] := by
      have beyond : m.protoDefaults[m.numSupportedProtocols]? = none := getElem?_eq_none (le_refl _)
      unfold portTable
      rw [beyond]
    obtain ⟨-, failed⟩ | ⟨-, -, failed⟩ | ⟨-, -, done, defaults⟩ :=
      UserProtocols.registerProtocol_outcomes
    · rw [failed] at accepted
      cases accepted
    · rw [failed] at accepted
      cases accepted
    · generalize registerProtocol env m proto = result at accepted done defaults
      obtain ⟨rc, registered⟩ := result
      subst done
      have fresh : portTable tcp registered m.numSupportedProtocols = noPorts.toList := by
        have entry : registered.protoDefaults[m.numSupportedProtocols]? =
            some ⟨proto.name.take 31, true, proto.category, proto.breed, noPorts, noPorts⟩ := by
          rw [defaults]
          exact getElem?_concat_length
        unfold portTable
        rw [entry]
        cases tcp <;> rfl
      have empty : Covered noPorts.toList port ↔ Covered [] port := by
        apply iff_of_false
        · rintro ⟨range, member, used, -⟩
          exact used (congrArg PortRange.portLow (eq_of_mem_replicate member))
        · rintro ⟨range, member, -⟩
          cases member
      have places : noPorts.toList.countP isFree = freePlaces [] := by decide
      rw [handleElements_ports env _ _ _ accepted, covered_stored, fresh, absent, empty, places]
  · rw [if_neg new] at accepted ⊢
    have known := ((UserProtocols.getProtoByName_bound m proto.name).resolve_left new).2
    rw [handleElements_ports env _ _ _ accepted, covered_stored,
      countP_isFree (portTable_known known)]

/-- After a rule that is accepted, with decimal numbers in its elements for ports, the
default ports of its protocol are those of before and those written in the rule exactly
if these fit. -/
theorem rule_ports_exact_iff {env : RuleEnv} {m m' : Module} {rule elements text : Text}
    {proto : RuleProtocol} (shape : splitAtLast '@' rule = some (elements, text))
    (parsed : parseProtocol m.numSupportedProtocols text = .ok proto)
    (accepted : handleRule env m rule = (0, m')) (tcp : Bool)
    (decimal : ∀ value ∈ portValues tcp (elements.splitOn ','), Decimal value) :
    CoversExactly (portTable tcp m (ruleId m proto)) (portTable tcp m' (ruleId m proto))
        (written tcp (elements.splitOn ',')) ↔
      PortsFit (portTable tcp m (ruleId m proto)) (written tcp (elements.splitOn ',')) := by
  have run : (moduleOnly env).handleProtocolRule env m (elements.splitOn ',') proto = (0, m') := by
    unfold handleRule RuleTables.handleRule at accepted
    rw [shape] at accepted
    dsimp only [moduleOnly] at accepted
    rw [parsed] at accepted
    exact accepted
  exact coversExactly_iff decimal (accepted_stored run)

/-- Enough memory. -/
def sampleEnv : RuleEnv := ⟨fun _ => -1, fun _ _ _ _ => 0, true, true, fun _ => 0⟩

/-- One internal protocol. -/
def sampleModule : Module := ⟨1, [⟨['u'], false, 0, 0, noPorts, noPorts⟩], []⟩

/-- Two elements for TCP and one for UDP. -/
def severalPorts : Text := chars "tcp:80,udp:53,tcp:8000-8080"

lemma severalPorts_written :
    written true (severalPorts.splitOn ',') = [(80, 80), (8000, 8080)] := by decide +kernel

lemma severalPorts_decimal : ∀ value ∈ portValues true (severalPorts.splitOn ','), Decimal value := by
  have values : portValues true (severalPorts.splitOn ',') = [chars "80", chars "8000-8080"] := by
    decide +kernel
  rw [values]
  intro value member
  obtain rfl | rfl := mem_pair.mp member
  · exact .inl ⟨by decide, all_eq_true.mp (by decide +kernel)⟩
  · exact .inr ⟨chars "8000", chars "8080", by decide +kernel,
      ⟨by decide, all_eq_true.mp (by decide +kernel)⟩, by decide,
      all_eq_true.mp (by decide +kernel)⟩

theorem one_port_exact :
    CoversExactly (portTable true sampleModule 1)
      (portTable true (handleRule sampleEnv sampleModule (severalPorts ++ chars "@p")).2 1)
      [(80, 80), (8000, 8080)] := by
  have fit : PortsFit (portTable true sampleModule (ruleId sampleModule ⟨['p'], 0, 0, 2⟩))
      (written true (severalPorts.splitOn ',')) := by
    have table : portTable true sampleModule (ruleId sampleModule ⟨['p'], 0, 0, 2⟩) = [] := by
      decide +kernel
    have first : (claiming [(80, 80), (8000, 8080)]).take (freePlaces []) =
      [(80, 80), (8000, 8080)] := by decide
    have none : (claiming [(80, 80), (8000, 8080)]).drop (freePlaces []) = [] := by decide
    rw [table, severalPorts_written]
    refine ⟨fun range member port within => ?_, by simp [none], fun range member turned => ?_⟩
    · obtain rfl | rfl := mem_pair.mp member <;>
        exact ⟨le_trans (by decide) within.1, le_trans within.2 (by decide)⟩
    · rw [first] at member
      obtain rfl | rfl := mem_pair.mp member <;> exact absurd turned (by decide)
  have exactly := (@rule_ports_exact_iff sampleEnv sampleModule _ (severalPorts ++ chars "@p")
    severalPorts ['p'] ⟨['p'], 0, 0, 2⟩ (by decide +kernel) (by decide +kernel)
    (Prod.ext (by decide +kernel) rfl) true severalPorts_decimal).mpr fit
  rwa [severalPorts_written] at exactly

/-- Six ports for one protocol. -/
def sixPorts : Text := chars "tcp:1,tcp:2,tcp:3,tcp:4,tcp:5,tcp:6@p"

def largePort : Text := chars "tcp:65616@p"

/-- Of six ports the last one is lost, and 65616 adds port 80. -/
theorem ports_lost_and_added :
    ((handleRule sampleEnv sampleModule sixPorts).1 = 0 ∧
      ¬ Covered (portTable true (handleRule sampleEnv sampleModule sixPorts).2 1) 6) ∧
    (handleRule sampleEnv sampleModule largePort).1 = 0 ∧
      ¬ Covered (portTable true sampleModule 1) 80 ∧
      Covered (portTable true (handleRule sampleEnv sampleModule largePort).2 1) 80 ∧
      ¬ Covered (portTable true (handleRule sampleEnv sampleModule largePort).2 1) 65616 := by
  decide +kernel

end Ndpi.Guarantees.RulePorts
