import Ndpi.Source.Tls.CertificateList

/-!
# Safety of the certificate walk

Once the lengths of a Certificate message are checked, the list ends with the payload. The
walk compares offsets in the payload with the length of the list, which is shorter by at
least seven bytes, and so every certificate it takes up lies inside the payload.
-/
namespace Ndpi.Guarantees.CertificateList
open Lib Source.Tls.CertificateList List Scan

variable {ctx : CertificateContext} {payload : Bytes}

/-- The slice that is hashed or dissected in an effect lies inside the payload. -/
def SliceInside (payload : Bytes) : CertificateEffect → Prop
  | .sha1 offset len => offset + len ≤ payload.length
  | .processElements offset len => offset + len ≤ payload.length
  | _ => True

/-- If the checks pass, the list is the rest of the payload. -/
lemma checkLengths_yields (header : 4 ≤ bound) (whole : payload.length ≤ bound) :
    (checkLengths ctx payload).Yields bound fun result =>
      ∀ n, result = .ok n → 0 < n ∧ payload.length = n + 7 + dtlsExtra ctx := by
  refine yields_bind (yields_be24 header) fun length _ => ?_
  refine yields_bind (yields_byte (by omega)) fun high _ => ?_
  split
  · exact yields_pure (by simp)
  · next accepted =>
    simp only [not_or, not_not, ge_iff_le, not_le] at accepted
    obtain ⟨total, -, room⟩ := accepted
    refine yields_bind (yields_be24 (by omega)) fun listLength _ => ?_
    refine yields_bind (yields_byte (by omega)) fun high' _ => ?_
    split
    · exact yields_pure (by simp)
    · next same =>
      simp only [not_or, not_not] at same
      apply yields_pure
      intro n passes
      cases passes
      exact ⟨by omega, by omega⟩

lemma sha1Fingerprint_yields (inside : offset + len ≤ payload.length) :
    (sha1Fingerprint ctx payload offset len).Yields payload.length fun effects =>
      ∀ effect ∈ effects, SliceInside payload effect := by
  unfold sha1Fingerprint
  split
  · refine yields_bind (yields_fetch (.inr inside)) fun certificate _ => ?_
    apply yields_pure
    intro effect member
    obtain rfl | later := mem_cons.mp member
    · exact inside
    · split at later
      · obtain rfl := mem_singleton.mp later
        trivial
      · cases later
  · exact yields_pure (by simp)

lemma dissectCertificate_yields (inside : offset + len ≤ payload.length) :
    (dissectCertificate ctx payload numFound offset len).Yields payload.length fun effects =>
      ∀ effect ∈ effects, SliceInside payload effect := by
  unfold dissectCertificate
  split
  · refine yields_bind (sha1Fingerprint_yields inside) fun hashed slices => ?_
    apply yields_pure
    intro effect member
    obtain hash | last := mem_append.mp member
    · exact slices effect hash
    · obtain rfl := mem_singleton.mp last
      exact inside
  · exact yields_pure (by simp)

/-- One turn: the walk moves on by four bytes at least, to a place inside the payload. -/
lemma certificateTurn_yields (rest : payload.length = n + 7 + dtlsExtra ctx)
    (st : CertificateWalk) (sound : ∀ effect ∈ st.effects, SliceInside payload effect) :
    (certificateTurn ctx payload n st).Yields payload.length fun came =>
      (∀ t, came = .stay t → (∀ effect ∈ t.effects, SliceInside payload effect) ∧
        n - t.offset < n - st.offset) ∧
      ∀ r, came = .leave r → ∀ effect ∈ r.effects, SliceInside payload effect := by
  unfold certificateTurn
  split
  · next before =>
    refine yields_bind (yields_be24 (by omega)) fun len _ => ?_
    refine yields_bind (yields_byte (by omega)) fun high _ => ?_
    split
    · refine yields_pure ⟨?_, ?_⟩
      · intro t stays
        cases stays
      · intro r leaves
        cases leaves
        exact sound
    · next accepted =>
      simp only [not_or, gt_iff_lt, not_lt] at accepted
      obtain ⟨positive, -, fits⟩ := accepted
      -- the list is followed by nothing: three bytes more still are in the payload
      have inside : st.offset + 3 + len ≤ payload.length := by omega
      apply yields_bind (dissectCertificate_yields inside)
      intro dissected slices
      refine yields_pure ⟨?_, ?_⟩
      · intro t stays
        cases stays
        refine ⟨fun effect member => ?_, ?_⟩
        · exact (mem_append.mp member).elim (sound effect) (slices effect)
        · dsimp only
          omega
      · intro r leaves
        cases leaves
  · refine yields_pure ⟨?_, ?_⟩
    · intro t stays
      cases stays
    · intro r leaves
      cases leaves
      exact sound

/-- For a payload that passes the length checks the walk ends, reads nothing outside of the
payload, and hashes and dissects only slices of it. -/
theorem certificate_slices_inside (ctx : CertificateContext) (payload : Bytes)
    (certificatesLength fuel : Nat)
    (passes : (checkLengths ctx payload).val = some (.ok certificatesLength))
    (enough : payload.length < fuel) :
    (processCertificate ctx fuel payload).Yields payload.length fun result =>
      result.1 = 1 ∧
      ∀ offset len, .sha1 offset len ∈ result.2 ∨ .processElements offset len ∈ result.2 →
        offset + len ≤ payload.length := by
  have lengths := (checkLengths_yields (by omega : 4 ≤ payload.length + 4)
    (Nat.le_add_right _ 4)).exactly passes
  obtain ⟨positive, rest⟩ := lengths.1 _ rfl
  have checked := ((checkLengths_yields (by omega) (le_refl _)).exactly passes).2
  apply yields_bind checked
  rintro _ rfl
  refine yields_bind (yields_untilLeave
    (certificateTurn_yields rest)
    (by dsimp only; omega) (fun effect member => nomatch member)) ?_
  intro st sound
  refine yields_pure ⟨rfl, ?_⟩
  have all : ∀ effect ∈ st.effects ++ (if ctx.tlsMaxNumBlocksToAnalyze ≠ 0 ∧
      ctx.numTlsBlocks ≥ ctx.tlsMaxNumBlocksToAnalyze then [.matchJa4, .stopExtraPackets]
      else []), SliceInside payload effect := by
    intro effect member
    obtain walked | last := mem_append.mp member
    · exact sound effect walked
    · split at last
      · obtain rfl | last := mem_cons.mp last
        · trivial
        · obtain rfl := mem_singleton.mp last
          trivial
      · cases last
  rintro offset len (hashed | dissected)
  · exact all _ hashed
  · exact all _ dissected

def sampleContext (isDtls : Bool) : CertificateContext :=
  ⟨isDtls, true, fun _ => "", none, 0, 0⟩

/-- A DTLS message whose list holds certificates of 12 and of 13 bytes. -/
def samplePayload : Bytes :=
  [0x0b, 0, 0, 34, 0, 0, 0, 0, 0, 0, 0, 34, 0, 0, 31] ++ [0, 0, 12] ++ List.replicate 12 0x30 ++
    [0, 0, 13] ++ List.replicate 13 0x30

theorem sample_slices_inside :
    (checkLengths (sampleContext true) samplePayload).val = some (.ok 31) ∧
      (processCertificate (sampleContext true) 47 samplePayload).val =
        some (1, [.sha1 18 12, .processElements 18 12]) ∧
      (processCertificate (sampleContext true) 47 samplePayload).Yields 46 fun result =>
        result.1 = 1 ∧
        ∀ offset len, .sha1 offset len ∈ result.2 ∨ .processElements offset len ∈ result.2 →
          offset + len ≤ 46 :=
  ⟨by rfl, by rfl, certificate_slices_inside (sampleContext true) samplePayload 31 47 (by rfl)
    (by decide)⟩

end Ndpi.Guarantees.CertificateList
