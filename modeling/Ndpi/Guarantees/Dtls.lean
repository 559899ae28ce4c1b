import Ndpi.Source.Tls.Dtls

/-!
# Progress of the DTLS record loop

The offset grows by the length of each record in 16 bits. A handshake record is
checked to end inside the payload; an alert is only checked against the length of
the whole payload, so a late one can take the offset past `2 ^ 16` and back.
-/
namespace Ndpi.Guarantees.Dtls
open Lib Source.Tls List

/-- The iteration is at an alert that ends at or behind `2 ^ 16`. -/
def AlertWraps (p : Bytes) (st : DtlsState) : Prop :=
  st.processed + 13 < p.length ∧ byteAt (p.drop st.processed) 0 = alertRecord ∧
    ∃ blockLen, isDtls (p.drop st.processed) p.length = some blockLen ∧
      65536 ≤ st.processed + (blockLen + 13)

/-- The offset grows in every iteration that stays in the loop. -/
def Increases (env : DtlsEnv) (p : Bytes) (start : DtlsState) : Prop :=
  ∀ st next, Visits (dtlsBody env p) start st → dtlsBody env p st = .stay next →
    st.processed < next.processed

/-- An iteration that stays has read a record and moves over it. -/
structure MovesOver (pLen : Nat) (blockLen : Nat) (st next : DtlsState) : Prop where
  fits : st.processed + (blockLen + 13) ≤ pLen
  moved : next.processed = wrap16 (st.processed + (blockLen + 13))

variable {st next : DtlsState} {env : DtlsEnv}

lemma dtlsFragment_stay (stays : dtlsFragment env block blockLen handshakeLen st = .stay next) :
    next.processed = wrap16 (st.processed + (blockLen + 13)) := by
  unfold dtlsFragment at stays
  split at stays
  · cases stays
  · have same : (dtlsAddFragment env block st).2.processed = st.processed := rfl
    rw [← same]
    generalize dtlsAddFragment env block st = added at stays
    obtain ⟨rc, added⟩ := added
    dsimp only at stays
    split at stays
    · cases stays
    · split at stays
      · cases stays
        rfl
      · cases stays
        rfl

lemma dtlsHandshake_stay (stays : dtlsHandshake env pLen block blockLen st = .stay next) :
    MovesOver pLen blockLen st next := by
  unfold dtlsHandshake at stays
  split at stays
  · cases stays
  · next inside =>
    refine ⟨by omega, ?_⟩
    split at stays
    · dsimp only at stays
      split at stays
      · cases stays
        rfl
      · split at stays
        · exact (dtlsFragment_stay stays :)
        · cases stays
    · cases stays
      rfl

lemma dtlsRecord_stay (stays : dtlsRecord env pLen block blockLen st = .stay next) :
    next.processed = wrap16 (st.processed + (blockLen + 13)) ∧
      (byteAt block 0 = alertRecord ∨ st.processed + (blockLen + 13) ≤ pLen) := by
  unfold dtlsRecord at stays
  split at stays
  · have moves := dtlsHandshake_stay stays
    exact ⟨moves.moved, .inr moves.fits⟩
  · split at stays
    · cases stays
    · split at stays
      · next alert =>
        cases stays
        exact ⟨rfl, .inl alert⟩
      · cases stays

/-- What an iteration that stays has done. -/
lemma dtlsBody_stay (stays : dtlsBody env p st = .stay next) :
    st.processed + 13 < p.length ∧
      ∃ blockLen, isDtls (p.drop st.processed) p.length = some blockLen ∧
        next.processed = wrap16 (st.processed + (blockLen + 13)) ∧
        (byteAt (p.drop st.processed) 0 = alertRecord ∨
          st.processed + (blockLen + 13) ≤ p.length) := by
  unfold dtlsBody at stays
  split at stays
  · next inside =>
    split at stays
    · cases stays
    · next blockLen read => exact ⟨inside, blockLen, read, dtlsRecord_stay stays⟩
  · cases stays

/-- An alert is always passed over. -/
lemma dtlsBody_alert {p : Bytes} {st : DtlsState} {blockLen : Nat}
    (inside : st.processed + 13 < p.length) (alert : byteAt (p.drop st.processed) 0 = alertRecord)
    (read : isDtls (p.drop st.processed) p.length = some blockLen) :
    ∃ next, dtlsBody env p st = .stay next ∧
      next.processed = wrap16 (st.processed + (blockLen + 13)) := by
  have stays : ∃ next, dtlsBody env p st = .stay next := by
    unfold dtlsBody dtlsRecord
    rw [if_pos inside, read]
    simp only [alert]
    exact ⟨_, rfl⟩
  obtain ⟨next, stays⟩ := stays
  obtain ⟨_, other, readOther, moved, _⟩ := dtlsBody_stay stays
  cases read.symm.trans readOther
  exact ⟨next, stays, moved⟩

lemma isDtls_fits (read : isDtls buf bufLen = some blockLen) : blockLen + 13 ≤ bufLen := by
  unfold isDtls at read
  dsimp only at read
  split at read
  · cases read
  · split at read
    · cases read
    · split at read
      · cases read
      · next valid =>
        cases read
        omega

/-- An iteration that stays goes forward exactly if it is not at such an alert. -/
lemma forward_iff {env : DtlsEnv} {d : Datagram}
    (stays : dtlsBody env d.payload st = .stay next) :
    st.processed < next.processed ↔ ¬AlertWraps d.payload st := by
  have small := d.small
  obtain ⟨inside, blockLen, read, moved, kind⟩ := dtlsBody_stay stays
  have fits := isDtls_fits read
  by_cases past : 65536 ≤ st.processed + (blockLen + 13)
  · have alert : byteAt (d.payload.drop st.processed) 0 = alertRecord := by
      rcases kind with alert | short
      · exact alert
      · omega
    refine iff_of_false ?_ (not_not.mpr ⟨inside, alert, blockLen, read, past⟩)
    rw [moved]
    unfold wrap16
    omega
  · apply iff_of_true
    · rw [moved, wrap16_of_lt (by omega)]
      omega
    · rintro ⟨_, _, other, readOther, pastOther⟩
      cases read.symm.trans readOther
      exact past pastOther

lemma increases_iff {env : DtlsEnv} {d : Datagram} :
    Increases env d.payload start ↔
      ∀ st, Visits (dtlsBody env d.payload) start st → ¬AlertWraps d.payload st := by
  constructor
  · intro increases st visits wraps
    have ⟨inside, alert, blockLen, read, _⟩ := wraps
    obtain ⟨next, stays, _⟩ := dtlsBody_alert inside alert read
    exact (forward_iff stays).mp (increases st next visits stays) wraps
  · intro never st next visits stays
    exact (forward_iff stays).mpr (never st visits)

lemma terminates_of_increases (increases : Increases env p start) :
    Terminates (dtlsBody env p) start := by
  refine terminates_of_decreasing (measure fun st : DtlsState => p.length - st.processed).wf ?_
  intro st next visits stays
  have forward := increases st next visits stays
  have inside := (dtlsBody_stay stays).1
  show p.length - next.processed < p.length - st.processed
  omega

/-- On a datagram the offset grows in every iteration, and the loop then ends, if
and only if no iteration is at an alert that ends at or behind `2 ^ 16`. -/
theorem dtls_offset_increases_iff (env : DtlsEnv) (d : Datagram) (message : Message)
    (certificateProcessed : Bool) :
    (Increases env d.payload (dtlsStart message certificateProcessed) ∧
      Terminates (dtlsBody env d.payload) (dtlsStart message certificateProcessed)) ↔
    ∀ st, Visits (dtlsBody env d.payload) (dtlsStart message certificateProcessed) st →
      ¬AlertWraps d.payload st := by
  rw [← increases_iff]
  exact ⟨And.left, fun increases => ⟨increases, terminates_of_increases increases⟩⟩

/-- An alert of 32755 bytes: with its header 32768, half of the range. -/
def halfHeader : Bytes := [0x15, 0xfe, 0xff, 0, 0, 0, 0, 0, 0, 0, 0, 0x7f, 0xf3]

def wrappingPayload : Bytes :=
  halfHeader ++ (List.replicate 32755 0 ++ (halfHeader ++ List.replicate 7219 0))

lemma wrappingPayload_length : wrappingPayload.length = 40000 := by
  simp only [wrappingPayload, length_append, length_replicate]
  decide

lemma wrappingPayload_half : wrappingPayload.drop 32768 = halfHeader ++ List.replicate 7219 0 := by
  rw [wrappingPayload, ← append_assoc]
  apply drop_left'
  rw [length_append, length_replicate]
  rfl

def wrappingDatagram : Datagram := ⟨wrappingPayload, by rw [wrappingPayload_length]; decide⟩

lemma isDtls_halfHeader : isDtls (halfHeader ++ rest) 40000 = some 32755 := by
  have type : byteAt (halfHeader ++ rest) 0 = alertRecord := rfl
  have major : byteAt (halfHeader ++ rest) 1 = 0xfe := rfl
  have minor : byteAt (halfHeader ++ rest) 2 = 0xff := rfl
  have high : byteAt (halfHeader ++ rest) 11 = 0x7f := rfl
  have low : byteAt (halfHeader ++ rest) 12 = 0xf3 := rfl
  have field : be16At (halfHeader ++ rest) 11 = 32755 := by
    rw [be16At, high, low]
    decide
  simp [isDtls, type, major, minor, field]

/-- From either of the two offsets an iteration goes to the other. -/
lemma wrapping_turn (env : DtlsEnv) (st : DtlsState)
    (at' : st.processed = 0 ∨ st.processed = 32768) :
    ∃ next, dtlsBody env wrappingPayload st = .stay next ∧
      (next.processed = 0 ∨ next.processed = 32768) := by
  have record : ∃ rest, wrappingPayload.drop st.processed = halfHeader ++ rest := by
    rcases at' with first | second
    · rw [first]
      exact ⟨_, rfl⟩
    · rw [second, wrappingPayload_half]
      exact ⟨_, rfl⟩
  obtain ⟨rest, record⟩ := record
  obtain ⟨next, stays, moved⟩ :=
    @dtlsBody_alert env wrappingPayload st 32755
      (by rw [wrappingPayload_length]; omega) (by rw [record]; rfl)
      (by rw [record, wrappingPayload_length]; exact isDtls_halfHeader)
  refine ⟨next, stays, ?_⟩
  rw [moved]
  rcases at' with first | second
  · rw [first]
    exact .inr rfl
  · rw [second]
    exact .inl rfl

/-- Two alerts of half the range each: the offset goes from 0 to 32768 and back to
0, and the loop never ends. -/
lemma wrappingDatagram_never_ends (env : DtlsEnv) :
    ¬Terminates (dtlsBody env wrappingDatagram.payload) (dtlsStart Message.cleared false) :=
  not_terminates_of_trapped (.inl rfl) (wrapping_turn env)

theorem dtls_loop_wraps :
    ¬Terminates (dtlsBody ⟨fun _ => ⟨true, true, fun _ => 0⟩, fun _ _ => false⟩
      wrappingDatagram.payload) (dtlsStart Message.cleared false) :=
  wrappingDatagram_never_ends _

end Ndpi.Guarantees.Dtls
