import Ndpi.Guarantees.DomainClassify

/-!
# The public suffix of a host name

`ndpi_domains.c:88-125`. The walk over the dots from the right ends at the first suffix that
is not listed, so the longest listed suffix is found only if all shorter ones are listed.
-/
namespace Ndpi.Guarantees.HostDomain
open Lib Source.Domains

/-- The places of the dots. -/
def Dots (hostname : Bytes) : Set Nat := {place | hostname[place]? = some dot}

/-- The dots with a listed suffix behind them. -/
def Listed (suffixes : StrHash) (hostname : Bytes) : Set Nat :=
  {place ∈ Dots hostname | (suffixes.findEntry (hostname.drop (place + 1))).isSome}

/-- The longest listed suffix is behind this dot, or the last label if none is listed. -/
def Longest (suffixes : StrHash) (hostname : Bytes) (place : Nat) : Prop :=
  IsLeast (Listed suffixes hostname) place ∨
    Listed suffixes hostname = ∅ ∧ IsGreatest (Dots hostname) place

variable {suffixes : StrHash} {hostname : Bytes}

/-- The walk is at `place`: the dots behind it are listed, and `prev` is the first of them,
or the last of all dots. -/
structure Walked (suffixes : StrHash) (hostname : Bytes) (place prev : Nat) : Prop where
  isDot : prev ∈ Dots hostname
  behind : ∀ other ∈ Dots hostname, place < other → other ∈ Listed suffixes hostname ∧ prev ≤ other
  final : place < prev ∨ prev ∈ upperBounds (Dots hostname)

/-- The walk ends at the start of the name or at a suffix that is not listed. -/
lemma suffixLoop_walked (domainId : Nat) (first : 0 ∉ Dots hostname)
    (walked : Walked suffixes hostname place prev) :
    ∃ stop prev', (suffixLoop suffixes hostname place prev domainId).1 = prev' + 1 ∧
      Walked suffixes hostname stop prev' ∧ stop ∉ Listed suffixes hostname ∧
      (stop = 0 ∨ stop ∈ Dots hostname) := by
  induction place generalizing prev domainId with
  | zero => exact ⟨0, prev, rfl, walked, fun listed => first listed.1, .inl rfl⟩
  | succ place ih =>
    rw [suffixLoop]
    split
    · next here =>
      cases found : suffixes.findEntry (hostname.drop (place + 2)) with
      | none => exact ⟨place + 1, prev, rfl, walked, by simp [Listed, found], .inr here⟩
      | some id =>
        refine ih id ⟨here, fun other isDot after => ⟨?_, after⟩, .inl place.lt_succ_self⟩
        rcases Nat.eq_or_lt_of_le after with rfl | beyond
        · exact ⟨isDot, by simp [found]⟩
        · exact (walked.behind other isDot beyond).1
    · next noDot =>
      refine ih _ ⟨walked.isDot, fun other isDot after => ?_,
        walked.final.imp_left Nat.lt_of_succ_lt⟩
      refine walked.behind other isDot (Nat.lt_of_le_of_ne after ?_)
      rintro rfl
      exact noDot isDot

/-- Before the first step, the walk is at the last dot. -/
lemma getHostDomainSuffix_walked (suffixes : StrHash) (several : dot ∈ hostname) :
    ∃ last, getHostDomainSuffix ⟨some suffixes⟩ hostname =
      suffixLoop suffixes hostname last last 0 ∧ Walked suffixes hostname last last := by
  obtain ⟨last, found, here, largest⟩ := DomainClassify.lastDotBefore_of_mem
    (by rwa [List.take_length])
  have greatest : last ∈ upperBounds (Dots hostname) := fun other isDot =>
    largest other (List.getElem?_eq_some_iff.mp isDot).1 isDot
  refine ⟨last, by simp [getHostDomainSuffix, found], here, fun other isDot after => ?_,
    .inr greatest⟩
  exact absurd after (Nat.not_lt.mpr (greatest isDot))

/-- In a name that has a dot, but not in front, the suffix is the longest listed one, or the
last label, exactly if all shorter suffixes than a listed one are listed. -/
theorem host_domain_suffix_longest_iff (suffixes : StrHash) (hostname : Bytes)
    (several : dot ∈ hostname) (first : 0 ∉ Dots hostname) :
    (∃ place, (getHostDomainSuffix ⟨some suffixes⟩ hostname).1 = place + 1 ∧
      Longest suffixes hostname place) ↔
      ∀ place ∈ Listed suffixes hostname, ∀ other ∈ Dots hostname, place < other →
        other ∈ Listed suffixes hostname := by
  obtain ⟨last, loop, before⟩ := getHostDomainSuffix_walked suffixes several
  obtain ⟨stop, prev, start, walked, unlisted, ended⟩ := suffixLoop_walked 0 first before
  rw [← loop] at start
  simp only [start, Nat.add_right_cancel_iff, exists_eq_left']
  constructor
  · intro longest place listed other isDot after
    rcases longest with ⟨-, least⟩ | ⟨none, -⟩
    · -- The missing suffix would have ended the walk before the listed one.
      by_contra missing
      have low := least listed
      have before : other ≤ stop := Nat.not_lt.mp fun beyond =>
        missing (walked.behind other isDot beyond).1
      rcases walked.final with early | greatest
      · omega
      · have := greatest isDot
        omega
    · simp [none] at listed
  · intro closed
    -- The walk ends in front of all listed suffixes, so it has seen the longest one.
    have beyond (other : Nat) (listed : other ∈ Listed suffixes hostname) : stop < other := by
      by_contra before
      rcases Nat.eq_or_lt_of_le (Nat.not_lt.mp before) with rfl | after
      · exact unlisted listed
      · exact unlisted (closed other listed stop (ended.resolve_left (by omega)) after)
    have least : prev ∈ lowerBounds (Listed suffixes hostname) := fun other listed =>
      (walked.behind other listed.1 (beyond other listed)).2
    by_cases here : prev ∈ Listed suffixes hostname
    · exact .inl ⟨here, least⟩
    · have greatest := walked.final.resolve_left fun early =>
        here (walked.behind prev walked.isDot early).1
      refine .inr ⟨Set.eq_empty_of_forall_notMem fun other listed => here ?_, walked.isDot,
        greatest⟩
      rwa [le_antisymm (least listed) (greatest listed.1)]

/-- A list with `co.uk` and without `uk`. -/
def coUk : StrHash := StrHash.empty.addEntry [0x63, 0x6F, 0x2E, 0x75, 0x6B] 1

/-- With `uk` in the list too, the suffix of `b.co.uk` is `co.uk`. -/
theorem host_domain_suffix_longest_sample :
    ∃ place, (getHostDomainSuffix ⟨some (coUk.addEntry [0x75, 0x6B] 2)⟩
        [0x62, 0x2E, 0x63, 0x6F, 0x2E, 0x75, 0x6B]).1 = place + 1 ∧
      Longest (coUk.addEntry [0x75, 0x6B] 2) [0x62, 0x2E, 0x63, 0x6F, 0x2E, 0x75, 0x6B] place := by
  refine (host_domain_suffix_longest_iff _ _ (by decide) (by simp [Dots, dot])).mpr
    fun place _ other isDot _ => ⟨isDot, ?_⟩
  have low := (List.getElem?_eq_some_iff.mp isDot).1
  obtain rfl | rfl := (by decide : ∀ i < 7,
    ([0x62, 0x2E, 0x63, 0x6F, 0x2E, 0x75, 0x6B] : Bytes)[i]? = some dot → i = 1 ∨ i = 4) other low
    isDot <;> decide

/-- The suffix of `b.co.uk` is `uk`, though `co.uk` is listed. -/
theorem host_domain_suffix_stops :
    let hostname := [0x62, 0x2E, 0x63, 0x6F, 0x2E, 0x75, 0x6B]
    ¬∃ place, (getHostDomainSuffix ⟨some coUk⟩ hostname).1 = place + 1 ∧
      Longest coUk hostname place := by
  rintro hostname ⟨place, same, longest⟩
  obtain rfl : 4 = place := Nat.succ.inj same
  have listed : 1 ∈ Listed coUk hostname := ⟨rfl, by decide⟩
  rcases longest with ⟨-, least⟩ | ⟨none, -⟩
  · exact absurd (least listed) (by decide)
  · simp [none] at listed

end Ndpi.Guarantees.HostDomain
