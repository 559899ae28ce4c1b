import Mathlib.Data.Prod.Lex
import Ndpi.Refinement.TlsFields
import Ndpi.Source.Tls.Records

/-!
# Progress of the TLS record loops

The record loop takes a record off the buffer in every iteration. The loop over the
messages of a handshake record moves by a length kept in 16 bits, which is zero for
a message of 65536 bytes.
-/
namespace Ndpi.Guarantees.TlsLoops
open Lib Source.Tls Refinement.TlsFields

abbrev Configuration := TlsPhase × TlsState

/-- The iteration accepts a message whose length, cut off at what the buffer holds,
is 65536. -/
def Stalls (ctx : TlsContext) : Configuration → Prop
  | (.records, _) => False
  | (.blocks len processed, st) =>
    processed + 4 ≤ len ∧ st.changeCipher ctx = false ∧
      be24At st.buffer (processed + 1) ≤ len ∧ byteAt st.buffer (processed + 1) = 0 ∧
      min (be24At st.buffer (processed + 1) + 4) st.bufferUsed = 65536

/-- An iteration of the inner loop moves over a byte at least, and so does one of
the outer loop when it is back at its head. -/
def Consumes : Configuration → Configuration → Prop
  | (.blocks _ processed, _), (.blocks _ processed', _) => processed < processed'
  | (.records, _), (.blocks _ _, _) => True
  | (_, st), (.records, st') => st'.bufferUsed < st.bufferUsed

/-- The inner loop runs over a record that is in the buffer. -/
def Entered : Configuration → Prop
  | (.records, _) => True
  | (.blocks len _, st) => 9 ≤ len ∧ len ≤ st.bufferUsed

variable {st : TlsState} {next : Configuration}

/-- A record taken off the buffer leaves less in it. -/
lemma endRecord_stay (stays : endRecord wrong len st = .stay next)
    (some : 0 < len) (inside : len ≤ st.bufferUsed) :
    next.1 = .records ∧ next.2.bufferUsed < st.bufferUsed := by
  unfold endRecord at stays
  rw [sub32_of_le inside] at stays
  dsimp only at stays
  split at stays
  · split at stays
    · cases stays
    · cases stays
      refine ⟨rfl, ?_⟩
      show st.bufferUsed - len < st.bufferUsed
      omega
  · cases stays

lemma changeCipherSpecRecord_stay
    (stays : changeCipherSpecRecord ctx st = .stay next) (inside : st.recordLen ≤ st.bufferUsed) :
    next.1 = .records ∧ next.2.bufferUsed < st.bufferUsed := by
  have some : 0 < st.recordLen := Nat.succ_pos _
  unfold changeCipherSpecRecord at stays
  split at stays
  · dsimp only at stays
    split at stays
    · cases stays
    · exact (endRecord_stay stays some inside :)
  · exact endRecord_stay stays some inside

/-- Where an iteration of the record loop leads: into the inner loop, or back with
less in the buffer. -/
lemma recordBody_stay (stays : recordBody ctx st = .stay next) :
    (next = (.blocks st.recordLen 5, st) ∧ 9 ≤ st.recordLen ∧ st.recordLen ≤ st.bufferUsed) ∨
      (next.1 = .records ∧ next.2.bufferUsed < st.bufferUsed) := by
  have some : 0 < st.recordLen := Nat.succ_pos _
  unfold recordBody at stays
  split at stays
  · cases stays
  · split at stays
    · cases stays
    · split at stays
      · cases stays
      · next inside =>
        have inside := Nat.le_of_not_lt inside
        dsimp only at stays
        split at stays
        · split at stays
          · next long =>
            cases stays
            exact .inl ⟨rfl, long, inside⟩
          · exact .inr (endRecord_stay stays some inside)
        · right
          split at stays
          · exact (changeCipherSpecRecord_stay stays inside :)
          · split at stays
            · exact (endRecord_stay stays some inside :)
            · split at stays
              · exact (endRecord_stay stays some inside :)
              · exact (endRecord_stay stays some inside :)

variable {ctx : TlsContext}

/-- Where an iteration of the inner loop leads: over an accepted message, or to the
end of the record. -/
lemma blockBody_stay (entered : Entered (.blocks len processed, st))
    (stays : blockBody ctx len processed st = .stay next) :
    (processed + 4 ≤ len ∧ st.changeCipher ctx = false ∧
      be24At st.buffer (processed + 1) ≤ len ∧ byteAt st.buffer (processed + 1) = 0 ∧
      next = (.blocks len (processed + blockPayloadLen st processed),
        { st with effects := st.effects ++ blockEffects st processed })) ∨
      (next.1 = .records ∧ next.2.bufferUsed < st.bufferUsed) := by
  obtain ⟨long, inside⟩ := entered
  have some : 0 < len := by omega
  unfold blockBody at stays
  split at stays
  · next more =>
    dsimp only at stays
    split at stays
    · exact .inr (endRecord_stay stays some inside :)
    · next plain =>
      split at stays
      · exact .inr (endRecord_stay stays some inside)
      · next valid =>
        split at stays
        · exact .inr (endRecord_stay stays some inside)
        · cases stays
          rw [not_or, not_lt, not_not] at valid
          exact .inl ⟨more, Bool.eq_false_iff.mpr plain, valid.1, valid.2, rfl⟩
  · exact .inr (endRecord_stay stays some inside)

lemma tlsBody_entered (c next : Configuration) (entered : Entered c)
    (stays : tlsBody ctx c = .stay next) : Entered next := by
  obtain ⟨phase, st⟩ := c
  obtain ⟨phase', st'⟩ := next
  cases phase with
  | records =>
    rcases recordBody_stay stays with ⟨same, long, inside⟩ | ⟨back, _⟩
    · cases same
      exact ⟨long, inside⟩
    · cases back
      trivial
  | blocks len processed =>
    rcases blockBody_stay entered stays with ⟨_, _, _, _, same⟩ | ⟨back, _⟩
    · cases same
      obtain ⟨long, inside⟩ := entered
      exact ⟨long, inside⟩
    · cases back
      trivial

lemma visits_entered (visits : Visits (tlsBody ctx) (.records, st) c) :
    Entered c :=
  visits.invariant trivial tlsBody_entered

/-- A 16-bit length is zero only for a message of 65536 bytes. -/
lemma blockPayloadLen_eq_zero_iff (some : 0 < st.bufferUsed)
    (short : byteAt st.buffer (processed + 1) = 0) :
    blockPayloadLen st processed = 0 ↔
      min (be24At st.buffer (processed + 1) + 4) st.bufferUsed = 65536 := by
  have bound := be16At_lt st.buffer (processed + 1 + 1)
  have small : be24At st.buffer (processed + 1) < 65536 := by
    rw [be24At, short]
    exact (Nat.zero_add _).symm ▸ bound
  unfold blockPayloadLen wrap16
  omega

/-- A stalled iteration is repeated as it was. -/
lemma stalls_again (stalls : Stalls ctx c) :
    ∃ next, tlsBody ctx c = .stay next ∧ Stalls ctx next := by
  obtain ⟨phase, st⟩ := c
  cases phase with
  | records => cases stalls
  | blocks len processed =>
    obtain ⟨more, plain, fits, short, whole⟩ := stalls
    have zero : blockPayloadLen st processed = 0 := by rw [blockPayloadLen, whole]; rfl
    refine ⟨(.blocks len processed,
      { st with effects := st.effects ++ blockEffects st processed }), ?_, ?_⟩
    · simp only [tlsBody, blockBody]
      rw [if_pos more, plain, if_neg (by decide), if_neg (by simp [short, fits]), zero,
        if_neg (by omega), add_zero]
    · exact ⟨more, plain, fits, short, whole⟩

variable {c next : Configuration}

/-- An iteration that stays consumes exactly if it does not stall. -/
lemma consumes_iff (entered : Entered c) (stays : tlsBody ctx c = .stay next) :
    Consumes c next ↔ ¬Stalls ctx c := by
  obtain ⟨phase, st⟩ := c
  obtain ⟨phase', st'⟩ := next
  cases phase with
  | records =>
    refine iff_of_true ?_ id
    rcases recordBody_stay stays with ⟨same, _, _⟩ | ⟨back, less⟩
    · cases same
      trivial
    · cases back
      exact less
  | blocks len processed =>
    have ⟨long, inside⟩ := entered
    rcases blockBody_stay entered stays with ⟨more, plain, fits, short, same⟩ | ⟨back, less⟩
    · cases same
      have zero := blockPayloadLen_eq_zero_iff (show 0 < st.bufferUsed by omega) short
      simp only [Consumes, Stalls, more, plain, fits, short, true_and, ← zero]
      omega
    · cases back
      apply iff_of_true less
      intro stalls
      obtain ⟨next, turn, again⟩ := stalls_again stalls
      cases stays.symm.trans turn
      exact again

/-- Lexicographically: what the buffer holds, then what is left of the record. -/
def remaining : Configuration → ℕ ×ₗ ℕ
  | (.records, st) => toLex (st.bufferUsed, 65541)
  | (.blocks len processed, st) => toLex (st.bufferUsed, len - processed)

lemma remaining_decreases (entered : Entered c)
    (stays : tlsBody ctx c = .stay next) (runs : ¬Stalls ctx c) :
    remaining next < remaining c := by
  have consumes := (consumes_iff entered stays).mpr runs
  obtain ⟨phase, st⟩ := c
  obtain ⟨phase', st'⟩ := next
  cases phase with
  | records =>
    rcases recordBody_stay stays with ⟨same, _, _⟩ | ⟨back, less⟩
    · cases same
      have bound := be16At_lt st.buffer 3
      apply Prod.Lex.right _
      rw [TlsState.recordLen]
      omega
    · cases back
      exact Prod.Lex.left _ _ less
  | blocks len processed =>
    rcases blockBody_stay entered stays with ⟨more, _, _, _, same⟩ | ⟨back, less⟩
    · cases same
      have forward : processed < processed + blockPayloadLen st processed := consumes
      apply Prod.Lex.right _
      omega
    · cases back
      exact Prod.Lex.left _ _ less

/-- From any content of the buffer the loops end if and only if no iteration
accepts a message whose length comes to 65536, and under the same condition every
iteration consumes a byte. -/
theorem tls_loops_progress_iff (ctx : TlsContext) (st : TlsState) :
    (Terminates (tlsBody ctx) (.records, st) ↔
      ∀ c, Visits (tlsBody ctx) (.records, st) c → ¬Stalls ctx c) ∧
    ((∀ c next, Visits (tlsBody ctx) (.records, st) c → tlsBody ctx c = .stay next →
      Consumes c next) ↔
      ∀ c, Visits (tlsBody ctx) (.records, st) c → ¬Stalls ctx c) := by
  refine ⟨⟨fun ends c visits stalls => ?_, fun runs => ?_⟩, ⟨fun consumes c visits stalls => ?_,
    fun runs c next visits stays => ?_⟩⟩
  · exact not_terminates_of_trapped stalls (fun _ => stalls_again) (visits.terminates_iff.mp ends)
  · apply terminates_of_decreasing (InvImage.wf remaining wellFounded_lt)
    intro c next visits stays
    exact remaining_decreases (visits_entered visits) stays (runs c visits)
  · obtain ⟨next, stays, _⟩ := stalls_again stalls
    exact (consumes_iff (visits_entered visits) stays).mp (consumes c next visits stays) stalls
  · exact (consumes_iff (visits_entered visits) stays).mpr (runs c visits)

/-- The header of a record of 65535 bytes and of a message of 65536 in it. -/
def longHeader : Bytes := [0x16, 0x03, 0x01, 0xff, 0xff, 0x01, 0x00, 0xff, 0xfc]

def longRecord : TlsState :=
  ⟨longHeader ++ List.replicate 65531 0, 65540, false, false, .replicate 2 false, []⟩

lemma longRecord_stalls (ctx : TlsContext) : Stalls ctx (.blocks 65540 5, longRecord) := by
  have first : byteAt longRecord.buffer 6 = 0 := rfl
  have second : byteAt longRecord.buffer 7 = 0xff := rfl
  have third : byteAt longRecord.buffer 8 = 0xfc := rfl
  have len : be24At longRecord.buffer 6 = 65532 := by
    rw [be24At, be16At, first, second, third]
    decide
  refine ⟨by decide, ?_, ?_, first, ?_⟩
  · unfold TlsState.changeCipher
    split <;> rfl
  · rw [len]
    decide
  · rw [len]
    decide

/-- A record of 65535 bytes with one message of 65536: the inner loop stays at its
first message. -/
lemma longRecord_never_ends (ctx : TlsContext) :
    ¬Terminates (tlsBody ctx) (.records, longRecord) := by
  intro ends
  have type : byteAt longRecord.buffer 0 = handshakeRecord := rfl
  have version : byteAt longRecord.buffer 1 = 0x03 := rfl
  have high : byteAt longRecord.buffer 3 = 0xff := rfl
  have low : byteAt longRecord.buffer 4 = 0xff := rfl
  have len : longRecord.recordLen = 65540 := by
    rw [TlsState.recordLen, be16At, high, low]
    decide
  have used : longRecord.bufferUsed = 65540 := rfl
  have checked : checkTlsTypeAndVersion longRecord.buffer (wrap16 65540) = true := by
    simp [checkTlsTypeAndVersion, type, version, handshakeRecord]
  have enters : tlsBody ctx (.records, longRecord) = .stay (.blocks 65540 5, longRecord) := by
    simp [tlsBody, recordBody, used, checked, len, type]
  have visits : Visits (tlsBody ctx) (.records, longRecord) (.blocks 65540 5, longRecord) :=
    .next .start enters
  exact not_terminates_of_trapped (longRecord_stalls ctx) (fun _ => stalls_again)
    (visits.terminates_iff.mp ends)

theorem tls_long_message_stalls : ¬Terminates (tlsBody ⟨0, true, 0⟩) (.records, longRecord) :=
  longRecord_never_ends _

end Ndpi.Guarantees.TlsLoops
