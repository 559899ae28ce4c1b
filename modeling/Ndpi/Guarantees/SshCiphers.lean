import Ndpi.Source.Ssh

/-!
# The risk of an obsolete SSH cipher

`ssh_analyse_cipher` uses the position in its table as the flag that a cipher was found, so
that the first entry of the table is never reported.
-/
namespace Ndpi.Guarantees.SshCiphers
open Lib Lib.CString Source.Ssh List

/-- A list of ciphers, as its elements; the text has commas between them. -/
structure CipherList where
  elements : List Bytes
  plain : ∀ element ∈ elements, 44 ∉ element ∧ 0 ∉ element

def CipherList.text (list : CipherList) : Bytes := [44].intercalate list.elements

/-- The entry at position 0. -/
def arcfour256 : Bytes := ascii "arcfour256"

lemma obsoleteCiphers_eq : obsoleteCiphers = arcfour256 :: obsoleteCiphers.tail := rfl

lemma arcfour256_notMem_tail : arcfour256 ∉ obsoleteCiphers.tail := by decide

lemma searchTable_ne_zero :
    searchTable cipher 0 ≠ 0 ↔ cipher ∈ obsoleteCiphers.tail := by
  unfold searchTable
  rw [obsoleteCiphers_eq, idxOf?_cons]
  by_cases first : arcfour256 = cipher
  · subst first
    simp [arcfour256_notMem_tail]
  · have other : (arcfour256 == cipher) = false := by simpa using first
    rw [other]
    cases place : obsoleteCiphers.tail.idxOf? cipher with
    | none => simpa using idxOf?_eq_none_iff.mp place
    | some i =>
      have member : cipher ∈ obsoleteCiphers.tail := by
        rw [← isSome_idxOf?, place]
        rfl
      simpa using member

/-- Once a position other than 0 is found, the loop is left. -/
lemma searchCiphers_of_found (other : found ≠ 0) : searchCiphers ciphers found = found := by
  cases ciphers with
  | nil => rfl
  | cons cipher rest => exact if_pos other

/-- The loop over the tokens ends with a position other than 0 for the ciphers behind the
first entry only. -/
lemma searchCiphers_ne_zero (ciphers : List Bytes) :
    searchCiphers ciphers 0 ≠ 0 ↔ ∃ cipher ∈ ciphers, cipher ∈ obsoleteCiphers.tail := by
  induction ciphers with
  | nil => simp [searchCiphers]
  | cons cipher rest ih =>
    have step : searchCiphers (cipher :: rest) 0 = searchCiphers rest (searchTable cipher 0) := rfl
    rw [step, exists_mem_cons_iff]
    by_cases found : searchTable cipher 0 = 0
    · have other : cipher ∉ obsoleteCiphers.tail := fun member =>
        searchTable_ne_zero.mpr member found
      rw [found, ih, or_iff_right other]
    · rw [searchCiphers_of_found found]
      exact iff_of_true found (.inl (searchTable_ne_zero.mp found))

/-- The string that the tokens are taken from is the list. -/
lemma tokens_text (list : CipherList) :
    tokens 44 (cString (strncpy list.text list.text.length ++ [0])) =
      list.elements.filter (· ≠ []) := by
  have plain : 0 ∉ list.text :=
    notMem_intercalate (by decide) fun element member => (list.plain element member).2
  have copied : strncpy list.text list.text.length = list.text := by
    have whole := strncpy_append plain []
    rwa [append_nil] at whole
  rw [copied, cString_append plain]
  exact tokens_intercalate fun element member => (list.plain element member).1

/-- The risk that the analysis can raise. -/
def obsoleteRisk (isClientSignature : Bool) : Risk :=
  if isClientSignature then .sshObsoleteClientVersionOrCipher
  else .sshObsoleteServerVersionOrCipher

/-- The analysis of a list adds its risk to the flow. -/
def Raises (list : CipherList) (isClientSignature : Bool) (flow : SshFlow) : Prop :=
  ∃ text, (sshAnalyseCipher list.text isClientSignature flow).risks =
    flow.risks ++ [(obsoleteRisk isClientSignature, text)]

lemma raises_iff (list : CipherList) (isClientSignature : Bool) (flow : SshFlow) :
    Raises list isClientSignature flow ↔
      ∃ element ∈ list.elements, element ∈ obsoleteCiphers.tail := by
  have found : searchCiphers (tokens 44 (cString (strncpy list.text list.text.length ++ [0]))) 0 ≠ 0
      ↔ ∃ element ∈ list.elements, element ∈ obsoleteCiphers.tail := by
    rw [tokens_text, searchCiphers_ne_zero]
    constructor
    · rintro ⟨element, member, obsolete⟩
      exact ⟨element, mem_of_mem_filter member, obsolete⟩
    · rintro ⟨element, member, obsolete⟩
      refine ⟨element, mem_filter.mpr ⟨member, ?_⟩, obsolete⟩
      apply decide_eq_true
      rintro rfl
      exact absurd obsolete (by decide)
  rw [← found]
  unfold Raises sshAnalyseCipher
  dsimp only
  split
  · next some => exact iff_of_true ⟨_, rfl⟩ some
  · next none =>
    refine iff_of_false ?_ none
    rintro ⟨text, grown⟩
    simp at grown

/-- The risk is raised as the table says, unless the first cipher of the table is in the list
and none of the others is. -/
theorem raises_as_table_iff (list : CipherList) (isClientSignature : Bool) (flow : SshFlow) :
    (Raises list isClientSignature flow ↔
        ∃ element ∈ list.elements, element ∈ obsoleteCiphers) ↔
      ¬(arcfour256 ∈ list.elements ∧ ∀ element ∈ list.elements, element ∈ obsoleteCiphers →
        element = arcfour256) := by
  rw [raises_iff]
  constructor
  · rintro same ⟨present, only⟩
    obtain ⟨element, member, obsolete⟩ := same.mpr ⟨arcfour256, present, by decide⟩
    have first := only element member (mem_of_mem_tail obsolete)
    exact arcfour256_notMem_tail (first ▸ obsolete)
  · intro spared
    constructor
    · rintro ⟨element, member, obsolete⟩
      exact ⟨element, member, mem_of_mem_tail obsolete⟩
    · rintro ⟨element, member, obsolete⟩
      by_contra none
      have only : ∀ e ∈ list.elements, e ∈ obsoleteCiphers → e = arcfour256 := by
        intro e inside entry
        rw [obsoleteCiphers_eq] at entry
        exact (mem_cons.mp entry).resolve_right fun behind => none ⟨e, inside, behind⟩
      exact spared ⟨only element member obsolete ▸ member, only⟩

lemma arcfour256_plain : ∀ element ∈ [arcfour256], 44 ∉ element ∧ 0 ∉ element := by
  intro element member
  rw [mem_singleton.mp member]
  decide

/-- A client that offers `arcfour256` alone. -/
def arcfour256Only : CipherList := ⟨[arcfour256], arcfour256_plain⟩

theorem arcfour256_not_raised :
    (∃ element ∈ arcfour256Only.elements, element ∈ obsoleteCiphers) ∧
    (sshAnalyseCipher arcfour256Only.text true ⟨none, none, none, []⟩).risks = [] ∧
    ¬Raises arcfour256Only true ⟨none, none, none, []⟩ := by
  have unchanged : (sshAnalyseCipher arcfour256Only.text true ⟨none, none, none, []⟩).risks = [] := by
    decide
  refine ⟨⟨arcfour256, mem_singleton_self _, by decide⟩, unchanged, ?_⟩
  rintro ⟨text, grown⟩
  rw [unchanged] at grown
  cases grown

end Ndpi.Guarantees.SshCiphers
