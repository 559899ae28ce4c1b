import Ndpi.Source.Tls.Certificate

/-!
# What an unflagged certificate says about the host name

A certificate with any list of dNSName entries, laid out as the extension is in the
packet, is left without the mismatch risk exactly when the comparison takes one of
the entries for the host name. The comparison takes more names than those that cover
the host: the text behind the star may occur anywhere in the host name from its
first dot on.
-/
namespace Ndpi.Guarantees.CertificateNames
open Lib Source.Tls Source.Tls.Certificate List

/-- The name the client asked for. -/
structure HostName where
  text : Bytes
  terminated : 0 ∉ text
  named : text ≠ []

/-- A dNSName entry; the code reads one byte of length. -/
structure DnsName where
  bytes : Bytes
  given : bytes ≠ []
  short : bytes.length < 256

def DnsName.entry (name : DnsName) : Bytes :=
  0x82 :: UInt8.ofNat name.bytes.length :: name.bytes

/-- The length of the octet string or of the sequence. -/
inductive LengthField where
  | short (n : Fin 128)
  | long (digits : Bytes) (few : digits.length < 128)

def LengthField.bytes : LengthField → Bytes
  | .short n => [UInt8.ofNat n.val]
  | .long digits _ => UInt8.ofNat (0x80 + digits.length) :: digits

/-- A certificate around its subjectAltName extension. What follows the names is not
a name again. -/
structure Certificate where
  before : Bytes
  critical : Bool
  octetLength : LengthField
  sequenceLength : LengthField
  names : List DnsName
  next : UInt8
  after : Bytes
  ended : isNameType next = false

def Certificate.tail (c : Certificate) : Bytes :=
  c.names.flatMap DnsName.entry ++ c.next :: c.after

def Certificate.head (c : Certificate) : Bytes :=
  [0x55, 0x1D, 0x11] ++ (if c.critical then [0x01, 0x01, 0xFF] else []) ++ [0x04]

def Certificate.payload (c : Certificate) : Bytes :=
  c.before ++ (c.head ++ (c.octetLength.bytes ++ 0x30 :: (c.sequenceLength.bytes ++ c.tail)))

/-- The state in which the extension is found. -/
def found (c : Certificate) (serverNames : Option Bytes) (subprotocolDetected : Bool) : AltNames :=
  ⟨c.before.length, false, serverNames, subprotocolDetected, []⟩

/-- No call asks for the mismatch risk. -/
def Unflagged (s : AltNames) : Prop := ∀ info, RiskUse.set .tlsCertificateMismatch info ∉ s.risks

/-- The name is the host name, or a wildcard for one label in front of the rest of
it. Names are compared without regard to case. -/
def Covers (host : HostName) (name : DnsName) : Prop :=
  cleanupServerName name.bytes = cleanupServerName host.text ∨
    ∃ label domain, cleanupServerName name.bytes = 0x2A :: 0x2E :: domain ∧
      cleanupServerName host.text = label ++ 0x2E :: domain ∧ label ≠ [] ∧ 0x2E ∉ label

/-- The name as it is compared: up to its first zero byte, in lower case, a question
mark for what cannot be printed. -/
def asRead (name : DnsName) : Bytes :=
  (normalizePrintableString (cleanupServerName (cString name.bytes))).1

/-- The name is read as the host name, or as a star and a text that first occurs in
the host name at or behind its first dot. -/
def Taken (host : HostName) (name : DnsName) : Prop :=
  ((asRead name).head? ≠ some 0x2A ∧ asRead name = host.text) ∨
    ((asRead name).head? = some 0x2A ∧ ∃ place, FirstAt (asRead name).tail host.text place ∧
      (0x2E ∈ host.text → 0x2E ∈ host.text.take (place + 1)))

/-- A name that is taken although the code has cut it or replaced bytes of it, or
although the text behind its star is not exactly what follows the first label. -/
structure Strays (host : HostName) (name : DnsName) : Prop where
  taken : Taken host name
  slip : asRead name ≠ cleanupServerName name.bytes ∨
    ((asRead name).head? = some 0x2A ∧ ∀ place, FirstAt (asRead name).tail host.text place →
      (asRead name).tail.head? ≠ some 0x2E ∨ place = 0 ∨ 0x2E ∈ host.text.take place ∨
        place + (asRead name).tail.length ≠ host.text.length)

lemma tolower_idem : tolower (tolower b) = tolower b := by
  unfold tolower
  split
  · next capital =>
    apply if_neg
    simp only [UInt8.le_iff_toNat_le, UInt8.toNat_add] at capital ⊢
    simp only [UInt8.reduceToNat] at capital ⊢
    omega
  · rfl

lemma tolower_eq_dot (dot : tolower b = 0x2E) : b = 0x2E := by
  unfold tolower at dot
  split at dot
  · next capital =>
    have sum := congrArg UInt8.toNat dot
    simp only [UInt8.le_iff_toNat_le, UInt8.toNat_add] at capital sum
    simp only [UInt8.reduceToNat] at capital sum
    omega
  · exact dot

lemma cleanupServerName_idem :
    cleanupServerName (cleanupServerName text) = cleanupServerName text := by
  simp [cleanupServerName, tolower_idem]

lemma cleanupServerName_append :
    cleanupServerName (first ++ rest) = cleanupServerName first ++ cleanupServerName rest :=
  map_append

/-- Whatever is not a slip is a name that covers the host. -/
lemma covers_of_taken (taken : Taken host name) (exact_ : ¬Strays host name) :
    Covers host name := by
  have read : asRead name = cleanupServerName name.bytes :=
    not_not.mp fun altered => exact_ ⟨taken, .inl altered⟩
  have lower : cleanupServerName (asRead name) = asRead name := by
    rw [read, cleanupServerName_idem]
  rcases taken with ⟨-, same⟩ | ⟨star, place, at_, behind⟩
  · left
    rw [← same, lower, read]
  · right
    obtain ⟨place, at_, dot, later, single, ends⟩ : ∃ place,
        FirstAt (asRead name).tail host.text place ∧ (asRead name).tail.head? = some 0x2E ∧
          place ≠ 0 ∧ 0x2E ∉ host.text.take place ∧
          place + (asRead name).tail.length = host.text.length := by
      by_contra none
      refine exact_ ⟨.inr ⟨star, place, at_, behind⟩, .inr ⟨star, fun place at_ => ?_⟩⟩
      by_contra bad
      push Not at bad
      exact none ⟨place, at_, bad⟩
    obtain ⟨domain, wildcard⟩ : ∃ domain, asRead name = 0x2A :: 0x2E :: domain := by
      obtain ⟨rest, eq⟩ := head?_eq_some_iff.mp star
      rw [eq] at dot
      obtain ⟨domain, eq'⟩ := head?_eq_some_iff.mp dot
      rw [tail_cons] at eq'
      exact ⟨domain, by rw [eq, eq']⟩
    rw [wildcard, tail_cons] at at_ ends
    have split : host.text = host.text.take place ++ 0x2E :: domain := by
      have tail := at_.there.eq_of_length (by rw [length_drop]; omega)
      rw [tail, take_append_drop]
    have domainLower : cleanupServerName (0x2E :: domain) = 0x2E :: domain := by
      rw [wildcard] at lower
      exact (List.cons.inj lower).2
    refine ⟨cleanupServerName (host.text.take place), domain, read.symm.trans wildcard, ?_, ?_, ?_⟩
    · conv_lhs => rw [split, cleanupServerName_append, domainLower]
    · intro empty
      have length := congrArg List.length empty
      simp only [cleanupServerName, length_map, length_take, length_nil] at length
      have inside := at_.inside
      omega
    · intro dotted
      obtain ⟨b, inside, eq⟩ := mem_map.mp dotted
      rw [tolower_eq_dot eq] at inside
      exact single inside

lemma matchesHost_iff (host : HostName) :
    matchesHost host.text (asRead name) = true ↔ Taken host name := by
  unfold matchesHost Taken
  split
  · next star =>
    simp only [star, ne_eq, not_true_eq_false, false_and, true_and, false_or]
    constructor
    · intro taken
      split at taken
      · next place at_ =>
        refine ⟨place, firstOccurrence_eq_some_iff.mp at_, fun dotted => ?_⟩
        rw [if_pos dotted] at taken
        exact (idxOf_le_iff_mem_take dotted).mp (of_decide_eq_true taken)
      · cases taken
    · rintro ⟨place, at_, behind⟩
      rw [firstOccurrence_eq_some_iff.mpr at_]
      by_cases dotted : 0x2E ∈ host.text
      · simp only [if_pos dotted]
        exact decide_eq_true ((idxOf_le_iff_mem_take dotted).mpr (behind dotted))
      · simp [if_neg dotted]
  · next plain =>
    simp only [plain, ne_eq, not_false_eq_true, true_and, false_and, or_false, decide_eq_true_eq]
    exact eq_comm

section

variable (pre : Bytes) {s : AltNames}

lemma byteAt_append (b : UInt8) (rest : Bytes) : byteAt (pre ++ b :: rest) pre.length = b := by
  simp [byteAt]

variable {env : CertificateEnv} {host : HostName}

/-- An entry that is not the last of the packet is read as it stands. -/
lemma nameStep_entry (name : DnsName) (more : rest ≠ []) (here : s.i = pre.length) :
    nameStep env host.text (pre ++ (name.entry ++ rest)) s =
      .stay (useName env host.text (cString name.bytes) (pre ++ name.entry).length s) := by
  have size : 0 < rest.length := length_pos_iff.mpr more
  have given : 0 < name.bytes.length := length_pos_iff.mpr name.given
  have length : (UInt8.ofNat name.bytes.length).toNat = name.bytes.length :=
    UInt8.toNat_ofNat_of_lt' name.short
  have total : (pre ++ (name.entry ++ rest)).length =
      pre.length + (2 + name.bytes.length + rest.length) := by
    simp only [DnsName.entry, length_append, length_cons]
    omega
  have type : byteAt (pre ++ (name.entry ++ rest)) s.i = 0x82 := by
    rw [here]
    exact byteAt_append pre _ _
  have len : byteAt (pre ++ (name.entry ++ rest)) (s.i + 1) = UInt8.ofNat name.bytes.length := by
    have split : pre ++ (name.entry ++ rest) =
        (pre ++ [0x82]) ++ UInt8.ofNat name.bytes.length :: (name.bytes ++ rest) := by
      simp [DnsName.entry]
    have place : pre.length + 1 = (pre ++ [(0x82 : UInt8)]).length := by simp
    rw [split, here, place]
    exact byteAt_append (pre ++ [0x82]) _ _
  have field : ((pre ++ (name.entry ++ rest)).drop (s.i + 2)).take name.bytes.length =
      name.bytes := by
    have split : pre ++ (name.entry ++ rest) =
        (pre ++ [0x82, UInt8.ofNat name.bytes.length]) ++ (name.bytes ++ rest) := by
      simp [DnsName.entry]
    rw [split, here, drop_left' (by simp), take_left']
    rfl
  have stop : s.i + 2 + name.bytes.length = (pre ++ name.entry).length := by
    simp only [DnsName.entry, length_append, length_cons, here]
    omega
  dsimp only [nameStep]
  rw [type, len, length, total, if_pos (by omega), if_pos (show isNameType 0x82 = true from rfl),
    if_pos (by omega), if_neg (by omega), field, stop]
  rfl

/-- The loop ends at a byte that announces no name. -/
lemma nameStep_ended {next : UInt8} (after : Bytes) (ended : isNameType next = false)
    (here : s.i = pre.length) :
    nameStep env host.text (pre ++ next :: after) s = .leave s := by
  have type : byteAt (pre ++ next :: after) s.i = next := by
    rw [here]
    exact byteAt_append pre next after
  dsimp only [nameStep]
  rw [type, if_pos (by simp [here]), if_neg (by simp [ended])]

lemma useName_unflagged (clean : Unflagged s) : Unflagged (useName env host.text text i s) := by
  intro info asked
  dsimp only [useName] at asked
  simp only [mem_append] at asked
  rcases asked with (known | named) | cleared
  · exact clean info known
  · split at named <;> simp at named
  · split at cleared <;> simp at cleared

/-- What the loop makes of the entries in front of a byte that announces no name. -/
lemma nameLoop_names {next : UInt8} (env : CertificateEnv) (host : HostName) (pre : Bytes)
    (names : List DnsName) (after : Bytes) (ended : isNameType next = false)
    (here : s.i = pre.length) (clean : Unflagged s) :
    let result := nameLoop env host.text (pre ++ (names.flatMap DnsName.entry ++ next :: after)) s
    (result.matchedName = true ↔ s.matchedName = true ∨ ∃ name ∈ names, Taken host name) ∧
      Unflagged result := by
  induction names generalizing pre s with
  | nil =>
    rw [flatMap_nil, nil_append, nameLoop_leave (nameStep_ended pre after ended here)]
    exact ⟨by simp, clean⟩
  | cons name names ih =>
    have rest : names.flatMap DnsName.entry ++ next :: after ≠ [] := by simp
    rw [flatMap_cons, append_assoc, nameLoop_stay (nameStep_entry pre name rest here)]
    have tail := ih (pre ++ name.entry) (s := useName env host.text (cString name.bytes)
      (pre ++ name.entry).length s) rfl (useName_unflagged clean)
    rw [append_assoc] at tail
    refine ⟨tail.1.trans ?_, tail.2⟩
    have step : (useName env host.text (cString name.bytes) (pre ++ name.entry).length
        s).matchedName = true ↔ s.matchedName = true ∨ Taken host name := by
      rw [← matchesHost_iff]
      exact Bool.or_eq_true_iff
    rw [step, exists_mem_cons_iff, or_assoc]

variable (field : LengthField)

lemma skipLength_field (rest : Bytes) :
    skipLength (pre ++ (field.bytes ++ rest)) pre.length = pre.length + field.bytes.length - 1 := by
  unfold skipLength
  cases field with
  | short n =>
    have small : (UInt8.ofNat n.val).toNat = n.val :=
      UInt8.toNat_ofNat_of_lt' (by simp only [UInt8.size]; omega)
    have first : byteAt (pre ++ (LengthField.bytes (.short n) ++ rest)) pre.length =
        UInt8.ofNat n.val := byteAt_append pre _ rest
    rw [first, small, if_neg (by omega)]
    simp [LengthField.bytes]
  | long digits few =>
    have small : (UInt8.ofNat (0x80 + digits.length)).toNat = 0x80 + digits.length :=
      UInt8.toNat_ofNat_of_lt' (by simp only [UInt8.size]; omega)
    have first : byteAt (pre ++ (LengthField.bytes (.long digits few) ++ rest)) pre.length =
        UInt8.ofNat (0x80 + digits.length) := byteAt_append pre _ _
    rw [first, small, if_pos (by omega)]
    simp only [LengthField.bytes, length_cons]
    omega

lemma LengthField.bytes_pos : 0 < field.bytes.length := by
  cases field with
  | short n => exact one_pos
  | long digits few => exact Nat.succ_pos _

end

section

variable {env : CertificateEnv} {host : HostName}

lemma flagMismatch_unflagged_iff (clean : Unflagged s) :
    Unflagged (flagMismatch env host.text s) ↔ s.matchedName = true := by
  unfold flagMismatch
  split
  · next is_matched => exact ⟨fun _ => is_matched, fun _ => clean⟩
  · next unmatched =>
    refine ⟨fun silent => ?_, fun is_matched => absurd is_matched unmatched⟩
    exact absurd (mem_append_right _ (mem_singleton_self _)) (silent _)

lemma Certificate.head_length (c : Certificate) :
    c.head.length = if c.critical then 7 else 4 := by
  unfold Certificate.head
  split <;> rfl

/-- The two ways to the octet string, with and without the critical flag. -/
lemma octetString_found (c : Certificate) :
    (if c.before.length + 3 < c.payload.length ∧ byteAt c.payload (c.before.length + 3) = 0x04
      then c.before.length + 3 + 1 else c.before.length + 3 + 4) =
      (c.before ++ c.head).length := by
  have fourth : byteAt c.payload (c.before.length + 3) = if c.critical then 0x01 else 0x04 := by
    unfold Certificate.payload Certificate.head byteAt
    rw [getElem?_append_right (by omega), Nat.add_sub_cancel_left]
    split <;> rfl
  have inside : c.before.length + 3 < c.payload.length := by
    have length := c.head_length
    simp only [Certificate.payload, length_append, length_cons]
    split at length <;> omega
  rw [fourth, length_append, c.head_length]
  cases c.critical with
  | true => exact if_neg fun both => absurd both.2 (by decide)
  | false => exact if_pos ⟨inside, rfl⟩

variable {serverNames : Option Bytes} {subprotocolDetected : Bool}

/-- Where the loop over the names starts. -/
lemma subjectAltName_eq {env : CertificateEnv} {host : HostName} :
    ∃ pre, c.payload = pre ++ c.tail ∧
      subjectAltName env host.text c.payload (found c serverNames subprotocolDetected) =
        flagMismatch env host.text (nameLoop env host.text c.payload
          ⟨pre.length, false, serverNames, subprotocolDetected, []⟩) := by
  have octet := c.octetLength.bytes_pos
  have sequence := c.sequenceLength.bytes_pos
  have total : c.payload.length = (c.before ++ c.head).length + c.octetLength.bytes.length + 1 +
      c.sequenceLength.bytes.length + c.tail.length := by
    simp only [Certificate.payload, length_append, length_cons]
    omega
  have first : skipLength c.payload (c.before ++ c.head).length =
      (c.before ++ c.head).length + c.octetLength.bytes.length - 1 := by
    have split : c.payload = (c.before ++ c.head) ++
        (c.octetLength.bytes ++ 0x30 :: (c.sequenceLength.bytes ++ c.tail)) := by
      simp [Certificate.payload]
    rw [split]
    exact skipLength_field _ _ _
  have second : skipLength c.payload
      ((c.before ++ c.head).length + c.octetLength.bytes.length + 1) =
      (c.before ++ c.head).length + c.octetLength.bytes.length + 1 +
        c.sequenceLength.bytes.length - 1 := by
    have split : c.payload = (c.before ++ c.head ++ c.octetLength.bytes ++ [0x30]) ++
        (c.sequenceLength.bytes ++ c.tail) := by
      simp [Certificate.payload]
    have skipped := skipLength_field (c.before ++ c.head ++ c.octetLength.bytes ++ [0x30])
      c.sequenceLength c.tail
    rw [← split, length_append, length_append] at skipped
    exact skipped
  refine ⟨c.before ++ c.head ++ c.octetLength.bytes ++ 0x30 :: c.sequenceLength.bytes, ?_, ?_⟩
  · simp [Certificate.payload]
  · have start : (c.before ++ c.head ++ c.octetLength.bytes ++
        0x30 :: c.sequenceLength.bytes).length = (c.before ++ c.head).length +
        c.octetLength.bytes.length + 1 + c.sequenceLength.bytes.length - 1 + 1 := by
      simp only [length_append, length_cons]
      omega
    have shift : (c.before ++ c.head).length + c.octetLength.bytes.length - 1 + 2 =
        (c.before ++ c.head).length + c.octetLength.bytes.length + 1 := by omega
    dsimp only [subjectAltName, found]
    rw [octetString_found, first, shift, second, start, if_pos (by omega), if_pos (by omega),
      if_pos (by omega), decide_eq_false host.named]

/-- A certificate stays unflagged exactly when one of its names is taken. -/
lemma subjectAltName_unflagged_iff :
    Unflagged (subjectAltName env host.text c.payload (found c serverNames subprotocolDetected)) ↔
      ∃ name ∈ c.names, Taken host name := by
  obtain ⟨pre, layout, eq⟩ := subjectAltName_eq
  have reading := nameLoop_names env host pre c.names c.after c.ended
    (s := ⟨pre.length, false, serverNames, subprotocolDetected, []⟩) rfl
    (fun info => not_mem_nil)
  rw [eq, layout, Certificate.tail, flagMismatch_unflagged_iff reading.2, reading.1]
  simp

end

/-- A certificate is left unflagged only for a name that covers the host exactly when
every name that strays is accompanied by one that covers the host. -/
theorem unflagged_covered_iff (env : CertificateEnv) (host : HostName) (c : Certificate)
    (serverNames : Option Bytes) (subprotocolDetected : Bool) :
    (Unflagged (subjectAltName env host.text c.payload
        (found c serverNames subprotocolDetected)) → ∃ name ∈ c.names, Covers host name) ↔
      ∀ name ∈ c.names, Strays host name → ∃ other ∈ c.names, Covers host other := by
  rw [subjectAltName_unflagged_iff]
  constructor
  · intro sound name named strays
    exact sound ⟨name, named, strays.taken⟩
  · rintro sound ⟨name, named, taken⟩
    by_cases strays : Strays host name
    · exact sound name named strays
    · exact ⟨name, named, covers_of_taken taken strays⟩

/-- A library that asks for nothing beyond the comparison. -/
def plainEnv : CertificateEnv := ⟨false, false, false, false, id, fun _ => false⟩

/-- `a.com.evil.org`. -/
def deceptiveHost : HostName := ⟨ascii "a.com.evil.org", by decide, by decide⟩

/-- A certificate for `*.com` only. -/
def wildcardCertificate : Certificate where
  before := [0x06, 0x03]
  critical := false
  octetLength := .short 9
  sequenceLength := .short 7
  names := [⟨ascii "*.com", by decide, by decide⟩]
  next := 0x30
  after := []
  ended := rfl

/-- The name `*.com` is taken for a host name that has `.com` in the middle. -/
theorem suffix_in_the_middle_taken :
    Unflagged (subjectAltName plainEnv deceptiveHost.text wildcardCertificate.payload
        (found wildcardCertificate none false)) ∧
      ¬∃ name ∈ wildcardCertificate.names, Covers deceptiveHost name := by
  constructor
  · refine subjectAltName_unflagged_iff.mpr ⟨_, mem_singleton_self _, ?_⟩
    exact .inr ⟨rfl, 1, ⟨by decide, by decide, by decide⟩, fun _ => by decide⟩
  · rintro ⟨name, named, covers⟩
    rw [mem_singleton.mp named] at covers
    rcases covers with same | ⟨label, domain, wildcard, split, -, -⟩
    · exact absurd same (by decide)
    · have suffix : (0x2E :: domain) <:+ cleanupServerName deceptiveHost.text :=
        ⟨label, split.symm⟩
      rw [← (List.cons.inj wildcard).2] at suffix
      exact absurd suffix (by decide)

end Ndpi.Guarantees.CertificateNames
