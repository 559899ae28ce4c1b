import Ndpi.Guarantees.Shoco
import Ndpi.Lib.LastWrite
import Ndpi.Source.DomainClassify
import Mathlib.Data.List.Induction
import Mathlib.Data.List.TakeWhile

/-!
# The class of a host name

A host name gets the class that was last added for its longest suffix of whole labels.
Behind a module there is a second chance: the first label with its dot, as in `google.`,
which stands for any domain that begins with it. With a module, domains are stored under
compressed keys, which tell apart the domains that are not too long to be compressed.
-/
namespace Ndpi.Guarantees.DomainClassify
open Lib Source.Domains Source.DomainClassify Source.Shoco List Option

/-- A text as C has it. -/
structure CText where
  bytes : Bytes
  noZero : 0 ∉ bytes

/-- A call of `ndpi_domain_classify_add`. -/
structure Addition where
  domain : CText
  classId : Nat

/-- The domain that is added, without the dots in front. -/
def Addition.name (a : Addition) : Bytes := a.domain.bytes.dropWhile (· = dot)

def addAll (ndpiMod : Option Module) (additions : List Addition) : StrHash :=
  additions.foldl (fun domains a => domainClassifyAdd ndpiMod domains a.classId a.domain.bytes)
    .empty

def Added (additions : List Addition) (name : Bytes) : Prop := ∃ a ∈ additions, a.name = name

instance (additions : List Addition) (name : Bytes) : Decidable (Added additions name) :=
  inferInstanceAs (Decidable (∃ a ∈ additions, a.name = name))

/-- The last addition of a domain gave it this class. -/
def LastAdded (additions : List Addition) (name : Bytes) (classId : Nat) : Prop :=
  ∃ before a after, additions = before ++ a :: after ∧ a.name = name ∧ a.classId = classId ∧
    ∀ later ∈ after, later.name ≠ name

/-- The host name itself, or what follows one of its dots and has a dot itself. -/
def LabelSuffix (suffix hostname : Bytes) : Prop :=
  suffix = hostname ∨ (dot ∈ suffix ∧ ∃ before, hostname = before ++ dot :: suffix)

/-- The first label of a host name and the dot after it. -/
def firstLabel (hostname : Bytes) : Bytes := hostname.takeWhile (· ≠ dot) ++ [dot]

/-- A domain that has a key of its own with a module. -/
def Storable (name : Bytes) : Prop :=
  name.length ≤ 252 ∧ (4 < name.length → compress name 128 ≠ none)

instance (name : Bytes) : Decidable (Storable name) :=
  inferInstanceAs (Decidable (name.length ≤ 252 ∧ (4 < name.length → compress name 128 ≠ none)))

section

variable {m : Module}

variable (noList : m.publicDomainSuffixes = none)
include noList

/-- Without a list of suffixes, a key is the domain itself or its compressed bytes with
the id 0 behind them. -/
lemma encodeDomain_cases (domain : Bytes) :
    (253 ≤ domain.length ∧ encodeDomain m domain = []) ∨
      (domain.length ≤ 252 ∧ encodeDomain m domain = domain) ∨
      (4 < domain.length ∧ domain.length ≤ 252 ∧
        encodeDomain m domain = compressStr domain 128 ++ [0, 0]) := by
  by_cases long : 253 ≤ domain.length
  · refine .inl ⟨long, ?_⟩
    simp [encodeDomain, long]
  · by_cases short : domain.length ≤ 4
    · refine .inr (.inl ⟨by omega, ?_⟩)
      simp [encodeDomain, long, short]
    · have suffix : getHostDomainSuffix m domain = (0, 0) := by simp [getHostDomainSuffix, noList]
      simp only [encodeDomain, if_neg long, if_neg short, suffix, Nat.sub_zero, lt_irrefl,
        if_false, true_or, and_true, nil_append]
      split
      · split
        · exact .inr (.inl ⟨by omega, rfl⟩)
        · exact .inr (.inr ⟨by omega, by omega, rfl⟩)
      · next none_ =>
        refine .inr (.inr ⟨by omega, by omega, ?_⟩)
        rw [not_not.mp none_]
        rfl

/-- A stored domain shares its key with no other text. -/
lemma encodeDomain_eq_iff
    (noZero : 0 ∉ name) (noZero' : 0 ∉ text) (storable : Storable name) (some_ : text ≠ []) :
    (encodeDomain m name = encodeDomain m text ∧ encodeDomain m text ≠ []) ↔ name = text := by
  constructor
  · rintro ⟨same, key⟩
    rcases encodeDomain_cases noList name with ⟨long, -⟩ | ⟨-, raw⟩ | ⟨long, -, packed⟩
    · have := storable.1
      omega
    · rcases encodeDomain_cases noList text with ⟨-, none_⟩ | ⟨-, raw'⟩ | ⟨-, -, packed'⟩
      · exact absurd none_ key
      · rw [← raw, same, raw']
      · rw [raw, packed'] at same
        simp [same] at noZero
    · obtain ⟨bytes, done⟩ := ne_none_iff_exists'.mp (storable.2 long)
      have isBytes : compressStr name 128 = bytes := by rw [compressStr, done]; rfl
      rcases encodeDomain_cases noList text with ⟨-, none_⟩ | ⟨-, raw'⟩ | ⟨-, -, packed'⟩
      · exact absurd none_ key
      · rw [packed, raw'] at same
        simp [← same] at noZero'
      · rw [packed, packed', isBytes] at same
        have sameBytes := append_cancel_right same
        cases done' : compress text 128 with
        | none =>
          rw [compressStr, done'] at sameBytes
          exact absurd sameBytes
            (Shoco.compress_ne_nil noZero (ne_nil_of_length_pos (by omega)) done)
        | some bytes' =>
          rw [compressStr, done'] at sameBytes
          change bytes = bytes' at sameBytes
          subst sameBytes
          exact Shoco.compress_injective noZero noZero' done done'
  · rintro rfl
    refine ⟨rfl, ?_⟩
    rcases encodeDomain_cases noList name with ⟨long, -⟩ | ⟨-, raw⟩ | ⟨-, -, packed⟩
    · have := storable.1
      omega
    · rwa [raw]
    · simp [packed]

lemma encodeDomain_length_lt : (encodeDomain m name).length < 256 := by
  rcases encodeDomain_cases noList name with ⟨-, none_⟩ | ⟨short, raw⟩ | ⟨-, -, packed⟩
  · simp [none_]
  · rw [raw]
    omega
  · rw [packed, length_append, compressStr]
    cases done : compress name 128 with
    | none => simp
    | some bytes =>
      have := Shoco.compress_length_le done
      simp only [getD_some, length_cons, length_nil]
      omega

end

lemma findEntry_addEntry (h : StrHash) (short : key.length < 256) (value : Nat) (probe : Bytes) :
    (h.addEntry key value).findEntry probe =
      if key = probe ∧ probe ≠ [] then some value else h.findEntry probe := by
  unfold StrHash.addEntry StrHash.findEntry
  rw [Nat.mod_eq_of_lt short, take_length]
  by_cases none_ : probe = []
  · simp [none_]
  · by_cases empty : key = []
    · simp [none_, empty]
    · simp [none_, empty, eq_comm]

/-- The keys of the additions are of one piece and tell the text from all others. -/
def Separate (ndpiMod : Option Module) (additions : List Addition) (text : Bytes) : Prop :=
  ∀ a ∈ additions, (keyOf ndpiMod a.name).length < 256 ∧
    ((keyOf ndpiMod a.name = keyOf ndpiMod text ∧ keyOf ndpiMod text ≠ []) ↔ a.name = text)

def lastClass (additions : List Addition) (name : Bytes) : Option Nat :=
  lastWrite (fun a => if a.name = name then some a.classId else none) additions

/-- A text is found with the class that it was last added with. -/
lemma findEntry_addAll (separate : Separate ndpiMod additions text) :
    (addAll ndpiMod additions).findEntry (keyOf ndpiMod text) = lastClass additions text := by
  induction additions using List.reverseRecOn with
  | nil => simp [addAll, lastClass, StrHash.findEntry, StrHash.empty]
  | append_singleton additions a ih =>
    obtain ⟨short, tells⟩ := separate a (by simp)
    have before := ih fun b mem => separate b (by simp [mem])
    have step : addAll ndpiMod (additions ++ [a]) =
        (addAll ndpiMod additions).addEntry (keyOf ndpiMod a.name) a.classId := by
      simp [addAll, foldl_append, domainClassifyAdd, Addition.name]
    have last : lastClass (additions ++ [a]) text =
        (if a.name = text then some a.classId else none).or (lastClass additions text) :=
      lastWrite_concat _ _ _
    rw [step, findEntry_addEntry _ short, before, last]
    by_cases same : a.name = text
    · rw [if_pos (tells.mpr same), if_pos same]
      rfl
    · rw [if_neg (fun key => same (tells.mp key)), if_neg same]
      rfl

lemma lastClass_eq_some_iff :
    lastClass additions name = some classId ↔ LastAdded additions name classId := by
  rw [lastClass, lastWrite_eq_some_iff]
  constructor
  · rintro ⟨before, a, after, split, writes, leaves⟩
    have both : a.name = name ∧ a.classId = classId := by simpa using writes
    refine ⟨before, a, after, split, both.1, both.2, fun later mem same => ?_⟩
    simpa [same] using leaves later mem
  · rintro ⟨before, a, after, split, isName, isClass, leaves⟩
    refine ⟨before, a, after, split, by simp [isName, isClass], fun later mem => ?_⟩
    simp [leaves later mem]

lemma lastClass_eq_none_iff :
    lastClass additions name = none ↔ ¬Added additions name := by
  simp [lastClass, lastWrite, Added]

/-- The suffixes of whole labels that follow a dot and have one, longest first. -/
def dottedSuffixes : Bytes → List Bytes
  | [] => []
  | c :: item =>
    if c = dot then if dot ∈ item then item :: dottedSuffixes item else []
    else dottedSuffixes item

lemma classifyLoop_eq (find : Bytes → Option Nat) (hostname : Bytes) :
    classifyLoop find hostname = (dottedSuffixes hostname).findSome? find := by
  induction hostname with
  | nil => rfl
  | cons c item ih =>
    rw [classifyLoop, dottedSuffixes]
    split
    · split
      · rw [findSome?_cons, ih]
        cases find item <;> rfl
      · rfl
    · exact ih

lemma mem_dottedSuffixes : suffix ∈ dottedSuffixes hostname ↔
    dot ∈ suffix ∧ ∃ before, hostname = before ++ dot :: suffix := by
  induction hostname with
  | nil => simp [dottedSuffixes]
  | cons c item ih =>
    have step : (∃ before, c :: item = before ++ dot :: suffix) ↔
        (c = dot ∧ item = suffix) ∨ ∃ before, item = before ++ dot :: suffix := by
      constructor
      · rintro ⟨before, same⟩
        cases before with
        | nil => exact .inl (by simpa using same)
        | cons b before => exact .inr ⟨before, (List.cons.inj same).2⟩
      · rintro (⟨rfl, rfl⟩ | ⟨before, rfl⟩)
        · exact ⟨[], rfl⟩
        · exact ⟨c :: before, rfl⟩
    rw [step, dottedSuffixes]
    split
    · next isDot =>
      split
      · next more =>
        rw [mem_cons, ih]
        constructor
        · rintro (rfl | ⟨has, later⟩)
          · exact ⟨more, .inl ⟨isDot, rfl⟩⟩
          · exact ⟨has, .inr later⟩
        · rintro ⟨has, ⟨-, rfl⟩ | later⟩
          · exact .inl rfl
          · exact .inr ⟨has, later⟩
      · next last =>
        apply iff_of_false (by simp)
        rintro ⟨has, ⟨-, rfl⟩ | ⟨before, rfl⟩⟩
        · exact last has
        · exact last (by simp)
    · next other =>
      rw [ih]
      simp [other]

lemma dottedSuffixes_descending :
    (dottedSuffixes hostname).Pairwise fun longer shorter => shorter.length < longer.length := by
  induction hostname with
  | nil => exact .nil
  | cons c item ih =>
    rw [dottedSuffixes]
    split
    · split
      · refine .cons (fun suffix mem => ?_) ih
        obtain ⟨-, before, rfl⟩ := mem_dottedSuffixes.mp mem
        rw [length_append, length_cons]
        omega
      · exact .nil
    · exact ih

/-- All suffixes of whole labels, longest first. -/
def labelSuffixes (hostname : Bytes) : List Bytes := hostname :: dottedSuffixes hostname

lemma mem_labelSuffixes :
    suffix ∈ labelSuffixes hostname ↔ LabelSuffix suffix hostname := by
  rw [labelSuffixes, mem_cons, mem_dottedSuffixes, LabelSuffix]

lemma labelSuffixes_descending (hostname : Bytes) :
    (labelSuffixes hostname).Pairwise fun longer shorter => shorter.length < longer.length := by
  refine .cons (fun suffix mem => ?_) dottedSuffixes_descending
  obtain ⟨-, before, rfl⟩ := mem_dottedSuffixes.mp mem
  rw [length_append, length_cons]
  omega

/-- The first hit among texts that get shorter is the longest one. -/
lemma findSome?_longest {texts : List Bytes}
    (descending : texts.Pairwise fun longer shorter => shorter.length < longer.length) :
    texts.findSome? find = some value ↔ ∃ text ∈ texts, find text = some value ∧
      ∀ longer ∈ texts, text.length < longer.length → find longer = none := by
  rw [findSome?_eq_some_iff]
  constructor
  · rintro ⟨before, text, after, rfl, hit, misses⟩
    refine ⟨text, by simp, hit, fun longer mem isLonger => ?_⟩
    rw [pairwise_append, pairwise_cons] at descending
    rcases mem_append.mp mem with early | late
    · exact misses longer early
    · rcases mem_cons.mp late with rfl | later
      · omega
      · have := descending.2.1.1 longer later
        omega
  · rintro ⟨text, mem, hit, misses⟩
    obtain ⟨before, after, rfl⟩ := append_of_mem mem
    refine ⟨before, text, after, rfl, hit, fun early inBefore => ?_⟩
    rw [pairwise_append] at descending
    exact misses early (by simp [inBefore]) (descending.2.2 early inBefore text (by simp))

section

variable {ndpiMod : Option Module} {additions : List Addition} {hostname : Bytes}

lemma lastDotBefore_of_mem {hostname : Bytes} (has : dot ∈ hostname.take place) :
    ∃ last, lastDotBefore hostname place = some last ∧ hostname[last]? = some dot ∧
      ∀ other < place, hostname[other]? = some dot → other ≤ last := by
  induction place with
  | zero => simp at has
  | succ place ih =>
    rw [lastDotBefore]
    split
    · next here => exact ⟨place, rfl, here, fun other before _ => Nat.le_of_lt_succ before⟩
    · next noDot =>
      rw [take_add_one, mem_append, mem_toList] at has
      obtain ⟨last, found, here, largest⟩ := ih (has.resolve_right noDot)
      refine ⟨last, found, here, fun other before isDot => ?_⟩
      refine largest other (Nat.lt_of_le_of_ne (Nat.le_of_lt_succ before) ?_) isDot
      rintro rfl
      exact noDot isDot

/-- Outside the reserved domains, the host name is searched for among its suffixes before
the last resort. -/
lemma domainClassifyHostname_eq (dotted : dot ∈ hostname)
    (notArpa : ¬[0x2E, 0x61, 0x72, 0x70, 0x61] <:+ hostname)
    (notLocal : ¬[0x2E, 0x6C, 0x6F, 0x63, 0x61, 0x6C] <:+ hostname) :
    domainClassifyHostname ndpiMod domains hostname =
      ((labelSuffixes hostname).findSome? fun item => domains.findEntry (keyOf ndpiMod item)).or
        (ndpiMod.bind fun m => classifyWildcard m domains hostname) := by
  obtain ⟨last, isLast, -⟩ := lastDotBefore_of_mem (by rwa [take_length])
  have found : strrchrDot hostname = some (hostname.drop last) := by simp [strrchrDot, isLast]
  have public_ : ¬(hostname.drop last = [0x2E, 0x61, 0x72, 0x70, 0x61] ∨
      hostname.drop last = [0x2E, 0x6C, 0x6F, 0x63, 0x61, 0x6C]) := by
    rintro (same | same)
    · exact notArpa (same ▸ drop_suffix last hostname)
    · exact notLocal (same ▸ drop_suffix last hostname)
  rw [domainClassifyHostname, found]
  simp only [if_neg public_, classifyLoop_eq, labelSuffixes, findSome?_cons]
  cases domains.findEntry (keyOf ndpiMod hostname) with
  | some classId => rfl
  | none =>
    cases (dottedSuffixes hostname).findSome? fun item => domains.findEntry (keyOf ndpiMod item) <;>
      rfl

/-- The additions that have keys of their own. -/
def Stored (ndpiMod : Option Module) (additions : List Addition) : Prop :=
  ∀ a ∈ additions, a.domain.bytes.length ≤ 255 ∧ (ndpiMod.isSome → Storable a.name)

lemma separate_of_stored (noList : ∀ m ∈ ndpiMod, m.publicDomainSuffixes = none)
    (stored : Stored ndpiMod additions) (noZero : 0 ∉ text) (some_ : text ≠ []) :
    Separate ndpiMod additions text := by
  intro a mem
  obtain ⟨short, storable⟩ := stored a mem
  have part : a.name <:+ a.domain.bytes := dropWhile_suffix _
  have nameNoZero : 0 ∉ a.name := fun zero => a.domain.noZero (part.subset zero)
  cases ndpiMod with
  | none =>
    have shorter := part.length_le
    refine ⟨?_, ?_⟩
    · change a.name.length < 256
      omega
    · change a.name = text ∧ text ≠ [] ↔ a.name = text
      simp [some_]
  | some m =>
    have noList_ := noList m rfl
    exact ⟨encodeDomain_length_lt noList_,
      encodeDomain_eq_iff noList_ nameNoZero noZero (storable rfl) some_⟩

/-- The first label ends with the first dot, and goes on where there is none. -/
lemma takeWhile_append_dot (early late : Bytes) :
    (dot ∈ early → (early ++ late).takeWhile (· ≠ dot) = early.takeWhile (· ≠ dot)) ∧
      (dot ∉ early → early.length ≤ ((early ++ late).takeWhile (· ≠ dot)).length) := by
  constructor
  · intro within
    rw [takeWhile_append, if_neg]
    intro whole
    have all := takeWhile_eq_self_iff.mp ((List.takeWhile_prefix _).eq_of_length whole)
    simpa using all dot within
  · intro beyond
    have all : early.takeWhile (· ≠ dot) = early :=
      takeWhile_eq_self_iff.mpr fun c mem => decide_eq_true fun isDot => beyond (isDot ▸ mem)
    rw [takeWhile_append, if_pos (congrArg List.length all), length_append]
    omega

/-- The last resort finds what was added under the first label and its dot. -/
lemma classifyWildcard_eq (noList : m.publicDomainSuffixes = none)
    (stored : Stored (some m) additions) (noZero : 0 ∉ hostname) (dotted : dot ∈ hostname) :
    classifyWildcard m (addAll (some m) additions) hostname =
      lastClass additions (firstLabel hostname) := by
  have domain : getHostDomain m hostname = hostname := by simp [getHostDomain, noList]
  have labelNoZero : 0 ∉ firstLabel hostname := by
    intro zero
    rcases mem_append.mp zero with early | isDot
    · exact noZero ((List.takeWhile_prefix _).subset early)
    · simp [dot] at isDot
  have found := findEntry_addAll (separate_of_stored (by simpa using noList) stored labelNoZero
    (by simp [firstLabel]))
  have label := takeWhile_append_dot (hostname.take 255) (hostname.drop 255)
  rw [take_append_drop] at label
  unfold classifyWildcard
  rw [domain]
  dsimp only
  split
  · next within =>
    rw [← label.1 within]
    exact found
  · next beyond =>
    -- the first label is longer than any domain that is stored
    symm
    rw [lastClass_eq_none_iff]
    rintro ⟨a, mem, same⟩
    have long := label.2 beyond
    have short := ((stored a mem).2 rfl).1
    have cut : 255 < hostname.length := by
      by_contra whole
      rw [take_of_length_le (by omega)] at beyond
      exact beyond dotted
    rw [length_take] at long
    rw [same, firstLabel, length_append] at short
    omega

end

/-- The class of a host name outside the reserved domains is the one last added for the
longest suffix that was added, and behind a module, if there is none, the one last added
for the first label and its dot. -/
theorem classify_hostname_iff (ndpiMod : Option Module)
    (noList : ∀ m ∈ ndpiMod, m.publicDomainSuffixes = none) (additions : List Addition)
    (stored : Stored ndpiMod additions) (hostname : CText) (dotted : dot ∈ hostname.bytes)
    (notArpa : ¬[0x2E, 0x61, 0x72, 0x70, 0x61] <:+ hostname.bytes)
    (notLocal : ¬[0x2E, 0x6C, 0x6F, 0x63, 0x61, 0x6C] <:+ hostname.bytes) (classId : Nat) :
    domainClassifyHostname ndpiMod (addAll ndpiMod additions) hostname.bytes = some classId ↔
      (∃ suffix, LabelSuffix suffix hostname.bytes ∧ LastAdded additions suffix classId ∧
        ∀ longer, LabelSuffix longer hostname.bytes → suffix.length < longer.length →
          ¬Added additions longer) ∨
      (ndpiMod.isSome ∧ (∀ suffix, LabelSuffix suffix hostname.bytes → ¬Added additions suffix) ∧
        LastAdded additions (firstLabel hostname.bytes) classId) := by
  have find {suffix : Bytes} (isSuffix : suffix ∈ labelSuffixes hostname.bytes) :
      (addAll ndpiMod additions).findEntry (keyOf ndpiMod suffix) = lastClass additions suffix := by
    have inside : dot ∈ suffix ∧ suffix ⊆ hostname.bytes := by
      rcases mem_labelSuffixes.mp isSuffix with rfl | ⟨has, before, split⟩
      · exact ⟨dotted, List.Subset.refl _⟩
      · rw [split]
        exact ⟨has, fun c mem => by simp [mem]⟩
    exact findEntry_addAll (separate_of_stored noList stored
      (fun zero => hostname.noZero (inside.2 zero)) (ne_nil_of_mem inside.1))
  rw [domainClassifyHostname_eq dotted notArpa notLocal, or_eq_some_iff]
  apply or_congr
  · rw [findSome?_longest (labelSuffixes_descending _)]
    constructor
    · rintro ⟨suffix, mem, hit, misses⟩
      rw [find mem, lastClass_eq_some_iff] at hit
      refine ⟨suffix, mem_labelSuffixes.mp mem, hit, fun longer isSuffix isLonger => ?_⟩
      have miss := misses longer (mem_labelSuffixes.mpr isSuffix) isLonger
      rwa [find (mem_labelSuffixes.mpr isSuffix), lastClass_eq_none_iff] at miss
    · rintro ⟨suffix, isSuffix, last, longest⟩
      have mem := mem_labelSuffixes.mpr isSuffix
      refine ⟨suffix, mem, ?_, fun longer mem' isLonger => ?_⟩
      · rwa [find mem, lastClass_eq_some_iff]
      · rw [find mem', lastClass_eq_none_iff]
        exact longest longer (mem_labelSuffixes.mp mem') isLonger
  · have missed : ((labelSuffixes hostname.bytes).findSome? fun item =>
        (addAll ndpiMod additions).findEntry (keyOf ndpiMod item)) = none ↔
          ∀ suffix, LabelSuffix suffix hostname.bytes → ¬Added additions suffix := by
      rw [findSome?_eq_none_iff]
      refine forall_congr' fun suffix => ?_
      rw [mem_labelSuffixes]
      refine imp_congr_right fun isSuffix => ?_
      rw [find (mem_labelSuffixes.mpr isSuffix), lastClass_eq_none_iff]
    rw [missed]
    cases ndpiMod with
    | none => simp
    | some m =>
      rw [bind_some, classifyWildcard_eq (noList m rfl) stored hostname.noZero dotted,
        lastClass_eq_some_iff]
      simp

/-- `a.b.example.com`. -/
def sampleHost : CText := ⟨"a.b.example.com".toList.map chrByte, by decide +kernel⟩

/-- A domain twice, and a longer one in between. -/
def sampleAdditions : List Addition := [
  ⟨⟨"example.com".toList.map chrByte, by decide +kernel⟩, 1⟩,
  ⟨⟨".b.example.com".toList.map chrByte, by decide +kernel⟩, 2⟩,
  ⟨⟨"example.com".toList.map chrByte, by decide +kernel⟩, 3⟩]

theorem sample_host_classified :
    domainClassifyHostname (some ⟨none⟩) (addAll (some ⟨none⟩) sampleAdditions) sampleHost.bytes =
      some 2 := by
  have longest : ∀ longer ∈ labelSuffixes sampleHost.bytes,
      ("b.example.com".toList.map chrByte).length < longer.length →
        ¬Added sampleAdditions longer := by
    decide +kernel
  refine (classify_hostname_iff (some ⟨none⟩) (fun m mem => by cases mem; rfl) sampleAdditions
    (by unfold Stored; decide +kernel) sampleHost (by decide +kernel) (by decide +kernel)
    (by decide +kernel) 2).mpr (.inl ⟨"b.example.com".toList.map chrByte,
      .inr ⟨by decide +kernel, [0x61], by decide +kernel⟩, ?_, ?_⟩)
  · exact ⟨sampleAdditions.take 1, _, sampleAdditions.drop 2, rfl, by decide +kernel, rfl,
      by decide +kernel⟩
  · exact fun longer isSuffix => longest longer (mem_labelSuffixes.mpr isSuffix)

/-- `www.`, which stands for every domain that begins with it. -/
def wildcardAddition : Addition := ⟨⟨"www.".toList.map chrByte, by decide +kernel⟩, 7⟩

theorem wildcard_classifies_unadded_host :
    domainClassifyHostname (some ⟨none⟩) (addAll (some ⟨none⟩) [wildcardAddition])
        ("www.google.com".toList.map chrByte) = some 7 ∧
      ∀ suffix, LabelSuffix suffix ("www.google.com".toList.map chrByte) →
        ¬Added [wildcardAddition] suffix := by
  have unadded : ∀ suffix ∈ labelSuffixes ("www.google.com".toList.map chrByte),
      ¬Added [wildcardAddition] suffix := by
    decide +kernel
  exact ⟨by decide +kernel, fun suffix isSuffix => unadded suffix (mem_labelSuffixes.mpr isSuffix)⟩

end Ndpi.Guarantees.DomainClassify
