import Ndpi.Source.Utils

/-!
# BER lengths, URLs and host names

A length that is decoded stands in the payload in the definite form, but for one octet. The
parameters of a URL are searched for injections up to the first part that is none, and a
hyphen at the end of a label is found at the end of a host name only.
-/
namespace Ndpi.Guarantees.Utils
open Lib Lib.CString Source.Utils List

/-- These octets are a length in the definite form. -/
inductive Encodes : Bytes → Nat → Prop
  | short {octet : UInt8} (small : octet < 0x80) : Encodes [octet] octet.toNat
  | long {first : UInt8} {octets : Bytes} (count : first.toNat = 128 + octets.length)
      (some : octets ≠ []) (few : octets.length ≤ 4) : Encodes (first :: octets) (beNat octets)

/-- Each octet is put into bits that are still zero. -/
lemma berLengthLoop_eq (value : Nat) (octets : Bytes) :
    berLengthLoop (value <<< (octets.length * 8)) octets =
      octets.foldl (fun acc b => acc * 256 + b.toNat) value := by
  induction octets generalizing value with
  | nil => rfl
  | cons octet rest ih =>
    have shifted : value <<< ((rest.length + 1) * 8) = (value <<< 8) <<< (rest.length * 8) := by
      rw [← Nat.shiftLeft_add, Nat.add_mul, Nat.add_comm]
    have digit : value <<< 8 ||| octet.toNat = value * 256 + octet.toNat := by
      rw [← Nat.shiftLeft_add_eq_or_of_lt octet.toNat_lt, Nat.shiftLeft_eq]
    rw [length_cons, berLengthLoop, shifted, ← Nat.shiftLeft_or_distrib, digit, ih, foldl_cons]

/-- A decoded length stands in the definite form at the start of the payload exactly if the
payload does not start with the octet of the indefinite form. -/
theorem ber_length_decoded_iff (payload : Bytes) (length valueLen : Nat)
    (decoded : asn1BerDecodeLength payload = some (length, valueLen)) :
    (valueLen ≤ payload.length ∧ Encodes (payload.take valueLen) length) ↔
      payload.head? ≠ some 0x80 := by
  cases payload with
  | nil => cases decoded
  | cons first rest =>
    have low : (first &&& 0x7F).toNat = first.toNat % 128 := Nat.and_two_pow_sub_one_eq_mod _ 7
    have byte := first.toNat_lt
    simp only [asn1BerDecodeLength] at decoded
    split at decoded
    · cases decoded
    split at decoded
    · next below =>
      cases decoded
      simp only [length_cons, take_succ_cons, take_zero, head?_cons, ne_eq, Option.some.injEq]
      constructor
      · rintro ⟨-, encodes⟩ rfl
        cases encodes with
        | short small => exact absurd small (by decide)
      · intro differ
        exact ⟨by omega, .short (UInt8.lt_of_le_of_ne below differ)⟩
    split at decoded
    · cases decoded
    split at decoded
    · cases decoded
    next above _ fits =>
      cases decoded
      rw [not_or] at fits
      have large : 128 < first.toNat := not_le.mp above
      have whole : (rest.take (first &&& 0x7F).toNat).length = first.toNat - 128 := by
        rw [length_take]
        omega
      have value := berLengthLoop_eq 0 (rest.take (first &&& 0x7F).toNat)
      rw [Nat.zero_shiftLeft] at value
      refine iff_of_true ⟨by rw [length_cons]; omega, ?_⟩ ?_
      · rw [take_succ_cons, value]
        exact .long (by omega) (ne_nil_of_length_pos (by omega)) (by omega)
      · rintro same
        cases same
        exact absurd large (by decide)

theorem ber_length_decoded_sample :
    asn1BerDecodeLength [0x82, 1, 0, 7] = some (256, 3) ∧ Encodes [0x82, 1, 0] 256 :=
  ⟨by decide, ((ber_length_decoded_iff [0x82, 1, 0, 7] 256 3 (by decide)).mpr (by decide)).2⟩

/-- The indefinite form is taken for the length 128. -/
theorem indefinite_length_decoded : asn1BerDecodeLength [0x80] = some (128, 1) := by decide

/-- A part of the query that is a parameter with a value, not empty as a C string once it is
decoded, that one of the detectors takes. -/
def Injected (is : Detectors) (part : Bytes) : Prop :=
  ∃ name value decoded, part = name ++ 0x3D :: value ∧ 0x3D ∉ name ∧
    (urlDecode value).map cString = some decoded ∧ decoded ≠ [] ∧
      (is.xss decoded ∨ is.sql decoded ∨ is.rce decoded)

lemma valueRisk_iff (is : Detectors) (value : Bytes) :
    valueRisk is value ≠ .noRisk ↔ ∃ decoded, (urlDecode value).map cString = some decoded ∧
      decoded ≠ [] ∧ (is.xss decoded ∨ is.sql decoded ∨ is.rce decoded) := by
  unfold valueRisk
  rcases (urlDecode value).map cString with _ | _ | ⟨c, rest⟩
  · simp
  · simp
  · dsimp only
    repeat' split
    all_goals simp_all

lemma injected_iff (is : Detectors) (parameter : 0x3D ∈ part) :
    Injected is part ↔ valueRisk is ((part.dropWhile (· ≠ 0x3D)).drop 1) ≠ .noRisk := by
  have named {name value : Bytes} (plain : 0x3D ∉ name) :
      ((name ++ 0x3D :: value).dropWhile (· ≠ 0x3D)).drop 1 = value := by
    rw [dropWhile_append_of_pos (by grind)]
    rfl
  rw [valueRisk_iff]
  constructor
  · rintro ⟨name, value, decoded, rfl, plain, taken⟩
    rw [named plain]
    exact ⟨decoded, taken⟩
  · obtain ⟨name, value, rfl, plain⟩ := eq_append_cons_of_mem parameter
    rw [named plain]
    rintro ⟨decoded, taken⟩
    exact ⟨name, value, decoded, rfl, plain, taken⟩

/-- The loop ends at the first part that is no parameter. -/
lemma parametersRisk_iff (is : Detectors) (parts : List Bytes) :
    parametersRisk is parts ≠ .noRisk ↔ ∃ part ∈ parts.takeWhile (0x3D ∈ ·), Injected is part := by
  induction parts with
  | nil => simp [parametersRisk]
  | cons part parts ih =>
    rw [parametersRisk]
    split
    · next parameter =>
      rw [takeWhile_cons_of_pos (by simpa using parameter), exists_mem_cons_iff, ← ih,
        injected_iff is parameter]
      dsimp only
      split
      · next risk => exact iff_of_true risk (.inl risk)
      · next none => exact (or_iff_right none).symm
    · next other => simp [takeWhile_cons_of_neg, other]

/-- A risk is returned exactly for an injection before the first part that is no parameter,
and for two dots in a row. -/
theorem injection_reported_iff (is : Detectors) (url : Bytes) :
    (validateUrl is url).1 ≠ .noRisk ↔
      (∃ part ∈ (tokens 0x26 (query url)).takeWhile (0x3D ∈ ·), Injected is part) ∨
        ascii ".." <:+: url := by
  rw [← parametersRisk_iff, ← strstr_iff]
  simp only [validateUrl]
  split
  · next risk => exact iff_of_true risk (.inl risk)
  · next none =>
    rw [or_iff_right none]
    split <;> simp_all

/-- Takes the value `x` for an injection. -/
def sampleDetectors : Detectors := ⟨(· == [0x78]), fun _ => false, fun _ => false⟩

/-- A part that is no parameter hides those behind it. -/
theorem injection_hidden :
    (query (ascii "?a&b=x")).splitOn 0x26 = [ascii "a", ascii "b=x"] ∧
      sampleDetectors.xss (ascii "x") ∧
        (validateUrl sampleDetectors (ascii "?a&b=x")).1 = .noRisk := by
  decide +kernel

/-- The rest of a label of which `n` characters are read: it has 1 to 63 letters, digits and
hyphens and does not start with a hyphen. -/
structure Continues (n : Nat) (rest : Bytes) : Prop where
  some : 1 ≤ n + rest.length
  short : n + rest.length ≤ 63
  characters : ∀ c ∈ rest, isalnum c ∨ c = 0x2D
  starts : n = 0 → rest.head?.any isalnum

/-- A label as the comment of `ndpi_is_valid_hostname` has it. -/
structure Label (label : Bytes) : Prop extends Continues 0 label where
  ends : label.getLast?.any isalnum

def Hostname (text : Bytes) : Prop :=
  (1 ≤ text.length ∧ text.length ≤ 253) ∧ ∀ label ∈ text.splitOn 0x2E, Label label

lemma continues_nil_iff : Continues n [] ↔ 1 ≤ n ∧ n ≤ 63 := by grind [Continues]

lemma continues_cons_iff :
    Continues n (c :: rest) ↔
      (isalnum c ∨ c = 0x2D) ∧ (n = 0 → isalnum c) ∧ n + 1 ≤ 63 ∧ Continues (n + 1) rest := by
  grind [Continues]

lemma hostnameLoop_iff (labels : text.splitOn 0x2E = first :: more) (short : n ≤ 63) :
    (hostnameLoop n seen text).any (·.1 ≠ 0) ↔
      Continues n first ∧ ∀ label ∈ more, Continues 0 label := by
  induction text generalizing n seen first more with
  | nil =>
    rw [splitOn_nil] at labels
    cases labels
    rw [continues_nil_iff, hostnameLoop]
    simp [Nat.one_le_iff_ne_zero, short]
  | cons c text ih =>
    obtain ⟨rest, others, pieces⟩ := exists_cons_of_ne_nil (splitOn_ne_nil 0x2E text)
    rw [splitOn_cons_eq_if_modifyHead, pieces] at labels
    rw [hostnameLoop]
    by_cases dot : c = 0x2E
    · rw [if_pos (beq_iff_eq.mpr dot)] at labels
      cases labels
      rw [if_pos dot, continues_nil_iff, forall_mem_cons]
      grind
    · rw [if_neg (by simpa using dot)] at labels
      cases labels
      rw [if_neg dot, continues_cons_iff]
      grind

/-- The documented form, but that only the last label has to end in a letter or digit. -/
structure Accepted (text : Bytes) : Prop where
  length : 1 ≤ text.length ∧ text.length ≤ 253
  labels : ∀ label ∈ text.splitOn 0x2E, Continues 0 label
  ends : text.getLast?.any isalnum

lemma isValidHostname_iff {hostname : Bytes} (ended : 0 ∉ hostname) :
    isValidHostname hostname hostname.length ↔ Accepted hostname := by
  obtain ⟨first, more, labels⟩ := exists_cons_of_ne_nil (splitOn_ne_nil 0x2E hostname)
  have reads : (hostnameLoop 0 false hostname).any (·.1 ≠ 0) ↔
      ∀ label ∈ hostname.splitOn 0x2E, Continues 0 label := by
    rw [hostnameLoop_iff labels (Nat.zero_le _), ← forall_mem_cons, labels]
  have checks : isValidHostname hostname hostname.length ↔
      (1 ≤ hostname.length ∧ hostname.length ≤ 253) ∧
        (hostnameLoop 0 false hostname).any (·.1 ≠ 0) ∧ hostname.getLast?.any isalnum := by
    simp only [isValidHostname, take_length, cString_of_notMem ended]
    grind
  rw [checks, reads]
  exact ⟨fun ⟨length, labels, ends⟩ => ⟨length, labels, ends⟩, fun a => ⟨a.1, a.2, a.3⟩⟩

/-- A label that is read and does not end in a hyphen is one as documented. -/
lemma label_iff (reads : Continues 0 label) : Label label ↔ label.getLast? ≠ some 0x2D := by
  cases ends : label.getLast? with
  | none =>
    have nonempty := reads.some
    simp [getLast?_eq_none_iff.mp ends] at nonempty
  | some d =>
    have character := reads.characters d (mem_of_getLast? ends)
    constructor
    · rintro ⟨-, alnum⟩ hyphen
      rw [ends, hyphen] at alnum
      exact absurd alnum (by decide)
    · intro differ
      refine ⟨reads, ?_⟩
      rw [ends]
      exact character.resolve_right fun hyphen => differ (hyphen ▸ rfl)

lemma hostname_iff (text : Bytes) : Hostname text ↔
    Accepted text ∧ ∀ label ∈ (text.splitOn 0x2E).dropLast, label.getLast? ≠ some 0x2D := by
  obtain rfl | ⟨init, c, rfl⟩ := eq_nil_or_concat' text
  · exact iff_of_false (fun all => by cases all.1.1) fun all => by cases all.1.length.1
  by_cases dot : c = 0x2E
  · have empty : [] ∈ (init ++ [c]).splitOn 0x2E := by simp [dot, splitOn_append_cons_self]
    exact iff_of_false (fun all => absurd (all.2 _ empty).some (by decide))
      fun all => absurd (all.1.labels _ empty).some (by decide)
  · obtain ⟨firsts, piece, -, labels⟩ := splitOn_concat dot init
    constructor
    · rintro ⟨length, all⟩
      have last := (all (piece ++ [c]) (by simp [labels])).ends
      refine ⟨⟨length, fun label member => (all label member).toContinues, ?_⟩, fun label early =>
        (label_iff (all label (dropLast_subset _ early)).toContinues).mp
          (all label (dropLast_subset _ early))⟩
      simpa using last
    · rintro ⟨⟨length, reads, last⟩, inner⟩
      rw [labels, dropLast_concat] at inner
      refine ⟨length, fun label member => ?_⟩
      rcases mem_append.mp (labels ▸ member) with early | final
      · exact (label_iff (reads label member)).mpr (inner label early)
      · refine ⟨reads label member, ?_⟩
        rw [mem_singleton.mp final]
        simpa using last

/-- The check differs from the comment exactly for a string that it accepts and in which a
label before the last ends in a hyphen. -/
theorem valid_hostname_iff (hostname : Bytes) (ended : 0 ∉ hostname) :
    (isValidHostname hostname hostname.length ↔ Hostname hostname) ↔
      (Accepted hostname →
        ∀ label ∈ (hostname.splitOn 0x2E).dropLast, label.getLast? ≠ some 0x2D) := by
  rw [isValidHostname_iff ended, hostname_iff]
  tauto

theorem valid_hostname_sample : isValidHostname (ascii "a.b-c") 5 ↔ Hostname (ascii "a.b-c") :=
  (valid_hostname_iff (ascii "a.b-c") (by decide)).mpr fun _ => by decide +kernel

/-- A hyphen before a dot is accepted. -/
theorem hyphen_accepted : isValidHostname (ascii "a-.b") 4 ∧ ¬Hostname (ascii "a-.b") :=
  ⟨by decide +kernel, fun all => absurd (all.2 (ascii "a-") (by decide +kernel)).ends (by decide)⟩

end Ndpi.Guarantees.Utils
