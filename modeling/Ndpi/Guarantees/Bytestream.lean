import Mathlib.Data.List.TakeWhile
import Ndpi.Source.Bytestream

/-!
# Which strings are read as an address

`ndpi_bytestream_to_ipv4` takes what starts with four decimal numbers between dots and has
one more character. Each number is compared with 255 after it was accumulated in 32 bits,
so that a number of 2^32 or more can pass for the rest it leaves.
-/
namespace Ndpi.Guarantees.Bytestream
open Lib Source.Bytestream List Option

/-- A run of digits. -/
def Digits (run : Bytes) : Prop := run ≠ [] ∧ ∀ b ∈ run, isDigit b = true

lemma wrap32_step (n d : Nat) : wrap32 (wrap32 (wrap32 n * 10) + d) = wrap32 (n * 10 + d) := by
  unfold wrap32
  omega

lemma toNumber_run (run rest : Bytes) (digits : ∀ b ∈ run, isDigit b = true)
    (ends : ∀ b ∈ rest.head?, isDigit b = false) (before : Bytes) (bytesRead : Nat)
    (small : bytesRead + run.length < 65536) :
    toNumber (run ++ rest) (run ++ rest).length (wrap32 (digitsValue before)) bytesRead =
      (wrap32 (digitsValue (before ++ run)), bytesRead + run.length) := by
  induction run generalizing before bytesRead with
  | nil =>
    cases rest with
    | nil => simp [toNumber]
    | cons next rest =>
      have other : isDigit next = false := ends next rfl
      simp [toNumber, other]
  | cons b run ih =>
    have digit : isDigit b = true := digits b mem_cons_self
    rw [length_cons] at small
    have later : ∀ c ∈ run, isDigit c = true := fun c member =>
      digits c (mem_cons_of_mem _ member)
    have next := ih later (before ++ [b]) (bytesRead + 1) (by omega)
    rw [cons_append, length_cons, toNumber, if_pos digit, wrap32_step,
      ← digitsValue_append, wrap16_of_lt (by omega), next]
    simp only [append_assoc, singleton_append, length_cons]
    congr 1
    omega

/-- The number at the start of a string is the value of its first digits, in 32 bits. -/
lemma ndpiBytestreamToNumber_run {run : Bytes} (digits : ∀ b ∈ run, isDigit b = true)
    (ends : ∀ b ∈ rest.head?, isDigit b = false) (small : bytesRead + run.length < 65536) :
    ndpiBytestreamToNumber (run ++ rest) (run ++ rest).length bytesRead =
      (wrap32 (digitsValue run), bytesRead + run.length) :=
  toNumber_run run rest digits ends [] bytesRead small

lemma split_digits {s : Bytes} : ∃ run rest, s = run ++ rest ∧
    (∀ b ∈ run, isDigit b = true) ∧ ∀ b ∈ rest.head?, isDigit b = false := by
  refine ⟨s.takeWhile isDigit, s.dropWhile isDigit, takeWhile_append_dropWhile.symm, ?_, ?_⟩
  · intro b member
    exact mem_takeWhile_imp member
  · intro b first
    have := head?_dropWhile_not isDigit s
    rw [mem_def.mp first] at this
    simpa using this

/-- Where the first digits end is determined by the string. -/
lemma split_unique {run : Bytes} (same : run ++ rest = run' ++ rest')
    (digits : ∀ b ∈ run, isDigit b = true) (ends : ∀ b ∈ rest.head?, isDigit b = false)
    (digits' : ∀ b ∈ run', isDigit b = true) (ends' : ∀ b ∈ rest'.head?, isDigit b = false) :
    run = run' ∧ rest = rest' := by
  have stops {rest : Bytes} (ends : ∀ b ∈ rest.head?, isDigit b = false) :
      rest.takeWhile isDigit = [] := by
    cases rest with
    | nil => rfl
    | cons b rest => simp [ends b rfl]
  have first := congrArg (List.takeWhile isDigit) same
  rw [takeWhile_append_of_pos digits, takeWhile_append_of_pos digits', stops ends,
    stops ends', append_nil, append_nil] at first
  subst first
  exact ⟨rfl, append_cancel_left same⟩

variable {str : Bytes} {read : Nat}

/-- The numbers of an address that the function accepts. -/
lemma ipv4Number_iff (short : str.length < 65536) (inside : read ≤ str.length) {c after : Nat} :
    ipv4Number str str.length read = some (c, after) ↔
      ∃ run next rest, str.drop read = run ++ next :: rest ∧ Digits run ∧ isDigit next = false ∧
        c = wrap32 (digitsValue run) ∧ c ≤ 255 ∧ after = read + run.length := by
  obtain ⟨run, rest, split, digits, ends⟩ := split_digits
  have lengths : run.length + rest.length = str.length - read := by
    rw [← length_append, ← split, length_drop]
  have number : ndpiBytestreamToNumber (str.drop read) (str.length - read) read =
      (wrap32 (digitsValue run), read + run.length) := by
    rw [← length_drop, split]
    exact ndpiBytestreamToNumber_run digits ends (by omega)
  unfold ipv4Number
  rw [number]
  dsimp only
  constructor
  · intro accepted
    split at accepted
    · cases accepted
    · next conditions =>
      obtain ⟨rfl, rfl⟩ := Prod.mk.inj (Option.some.inj accepted)
      obtain ⟨small, moved, more⟩ : ¬wrap32 (digitsValue run) > 255 ∧ ¬read = read + run.length ∧
          ¬str.length = read + run.length := by simpa using conditions
      cases rest with
      | nil =>
        rw [length_nil] at lengths
        omega
      | cons next rest =>
        refine ⟨run, next, rest, split, ⟨?_, digits⟩, ends next rfl, rfl, by omega, rfl⟩
        rintro rfl
        exact moved rfl
  · rintro ⟨run', next, rest', text, ⟨nonempty, digits'⟩, other, rfl, small, rfl⟩
    have ends' : ∀ b ∈ (next :: rest').head?, isDigit b = false := by
      intro b first
      obtain rfl : next = b := by simpa using first
      exact other
    obtain ⟨rfl, rfl⟩ := split_unique (split.symm.trans text) digits ends digits' ends'
    have moved := length_pos_iff.mpr nonempty
    rw [length_cons] at lengths
    rw [if_neg (by omega)]

lemma ipv4Dotted_iff (short : str.length < 65536) (inside : read ≤ str.length) {after : Nat} :
    ipv4Dotted str str.length read = some (c, after) ↔
      ∃ run rest, str.drop read = run ++ 46 :: rest ∧ Digits run ∧ c = wrap32 (digitsValue run) ∧
        c ≤ 255 ∧ after = read + run.length + 1 := by
  have atEnd {run rest : Bytes} {next : UInt8} (text : str.drop read = run ++ next :: rest) :
      str[read + run.length]? = some next ∧ read + run.length + 1 ≤ str.length := by
    have length := congrArg List.length text
    rw [length_drop, length_append, length_cons] at length
    rw [← getElem?_drop, text]
    exact ⟨by simp, by omega⟩
  unfold ipv4Dotted
  constructor
  · intro accepted
    obtain ⟨⟨c', read'⟩, number, accepted⟩ := bind_eq_some_iff.mp accepted
    obtain ⟨run, next, rest, text, digits, -, rfl, small, rfl⟩ :=
      (ipv4Number_iff short inside).mp number
    obtain ⟨found, fits⟩ := atEnd text
    dsimp only at accepted
    rw [found] at accepted
    split at accepted
    · next dot =>
      obtain ⟨rfl, rfl⟩ := Prod.mk.inj (Option.some.inj accepted)
      obtain rfl := Option.some.inj dot
      exact ⟨run, rest, text, digits, rfl, small, wrap16_of_lt (by omega)⟩
    · cases accepted
  · rintro ⟨run, rest, text, digits, rfl, small, rfl⟩
    obtain ⟨found, fits⟩ := atEnd text
    have number := (ipv4Number_iff short inside).mpr
      ⟨run, 46, rest, text, digits, rfl, rfl, small, rfl⟩
    refine bind_eq_some_iff.mpr ⟨_, number, ?_⟩
    dsimp only
    rw [if_pos found, wrap16_of_lt (by omega)]

/-- Four runs of digits with dots between them, and one more character, at the start. -/
structure Quad (str run1 run2 run3 run4 : Bytes) : Prop where
  text : ∃ next rest, isDigit next = false ∧
    str = run1 ++ 46 :: (run2 ++ 46 :: (run3 ++ 46 :: (run4 ++ next :: rest)))
  digits1 : Digits run1
  digits2 : Digits run2
  digits3 : Digits run3
  digits4 : Digits run4

def quadLength (run1 run2 run3 run4 : Bytes) : Nat :=
  run1.length + 1 + run2.length + 1 + run3.length + 1 + run4.length

private lemma ends_dot : ∀ b ∈ (46 :: rest).head?, isDigit b = false := by
  intro b first
  obtain rfl : 46 = b := by simpa using first
  rfl

private lemma ends_next {next : UInt8} (other : isDigit next = false) :
    ∀ b ∈ (next :: rest).head?, isDigit b = false := by
  intro b first
  obtain rfl : next = b := by simpa using first
  exact other

/-- A string starts with at most one address. -/
lemma Quad.unique {str : Bytes} (quad : Quad str r1 r2 r3 r4) (other : Quad str s1 s2 s3 s4) :
    r1 = s1 ∧ r2 = s2 ∧ r3 = s3 ∧ r4 = s4 := by
  obtain ⟨next, rest, plain, text⟩ := quad.text
  obtain ⟨next', rest', plain', text'⟩ := other.text
  obtain ⟨first, rest1⟩ := split_unique (text.symm.trans text') quad.digits1.2 ends_dot
    other.digits1.2 ends_dot
  obtain ⟨second, rest2⟩ := split_unique (List.cons.inj rest1).2 quad.digits2.2 ends_dot
    other.digits2.2 ends_dot
  obtain ⟨third, rest3⟩ := split_unique (List.cons.inj rest2).2 quad.digits3.2 ends_dot
    other.digits3.2 ends_dot
  obtain ⟨fourth, -⟩ := split_unique (List.cons.inj rest3).2 quad.digits4.2 (ends_next plain)
    other.digits4.2 (ends_next plain')
  exact ⟨first, second, third, fourth⟩

/-- What the comparison with 255 sees of a number. -/
def seen (run : Bytes) : Nat := digitsValue run % 2 ^ 32

def address (n1 n2 n3 n4 : Nat) : Bytes :=
  [UInt8.ofNat n1, UInt8.ofNat n2, UInt8.ofNat n3, UInt8.ofNat n4]

private lemma drop_behind {next : UInt8} {str run : Bytes}
    (text : str.drop read = run ++ next :: rest) :
    str.drop (read + run.length + 1) = rest ∧ read + run.length + 1 ≤ str.length := by
  have length := congrArg List.length text
  rw [length_drop, length_append, length_cons] at length
  refine ⟨?_, by omega⟩
  rw [add_assoc, ← drop_drop, text, drop_append]
  simp

/-- The strings that the function accepts, and what it makes of them. -/
lemma ipv4Value_iff (short : str.length < 65536) {read : Nat} :
    ipv4Value str str.length = some (val, read) ↔
      ∃ r1 r2 r3 r4, Quad str r1 r2 r3 r4 ∧
        (seen r1 ≤ 255 ∧ seen r2 ≤ 255 ∧ seen r3 ≤ 255 ∧ seen r4 ≤ 255) ∧
        val = seen r1 * 2 ^ 24 + seen r2 * 2 ^ 16 + seen r3 * 2 ^ 8 + seen r4 ∧
        read = quadLength r1 r2 r3 r4 := by
  have value {a b c d : Nat} (small : a ≤ 255 ∧ b ≤ 255 ∧ c ≤ 255 ∧ d ≤ 255) :
      wrap32 (wrap32 (wrap32 (wrap32 (a * 2 ^ 24) + b * 2 ^ 16) + c * 2 ^ 8) + d) =
        a * 2 ^ 24 + b * 2 ^ 16 + c * 2 ^ 8 + d := by
    unfold wrap32
    omega
  unfold ipv4Value
  constructor
  · intro accepted
    obtain ⟨⟨c1, read1⟩, number1, accepted⟩ := bind_eq_some_iff.mp accepted
    obtain ⟨r1, rest1, text1, digits1, rfl, small1, rfl⟩ :=
      (ipv4Dotted_iff short (Nat.zero_le _)).mp number1
    obtain ⟨behind1, inside1⟩ := drop_behind text1
    obtain ⟨⟨c2, read2⟩, number2, accepted⟩ := bind_eq_some_iff.mp accepted
    obtain ⟨r2, rest2, text2, digits2, rfl, small2, rfl⟩ := (ipv4Dotted_iff short inside1).mp number2
    obtain ⟨behind2, inside2⟩ := drop_behind text2
    obtain ⟨⟨c3, read3⟩, number3, accepted⟩ := bind_eq_some_iff.mp accepted
    obtain ⟨r3, rest3, text3, digits3, rfl, small3, rfl⟩ := (ipv4Dotted_iff short inside2).mp number3
    obtain ⟨behind3, inside3⟩ := drop_behind text3
    obtain ⟨⟨c4, read4⟩, number4, accepted⟩ := bind_eq_some_iff.mp accepted
    obtain ⟨r4, next, rest4, text4, digits4, other, rfl, small4, rfl⟩ :=
      (ipv4Number_iff short inside3).mp number4
    obtain ⟨rfl, rfl⟩ := Prod.mk.inj (Option.some.inj accepted)
    have small := And.intro small1 (And.intro small2 (And.intro small3 small4))
    refine ⟨r1, r2, r3, r4, ⟨⟨next, rest4, other, ?_⟩, digits1, digits2, digits3, digits4⟩, small,
      value small, ?_⟩
    · have tail1 := behind1.symm.trans text2
      have tail2 := behind2.symm.trans text3
      have tail3 := behind3.symm.trans text4
      rw [drop_zero, tail1, tail2, tail3] at text1
      exact text1
    · unfold quadLength
      omega
  · rintro ⟨r1, r2, r3, r4, quad, small, rfl, rfl⟩
    obtain ⟨next, rest, other, text⟩ := quad.text
    have text1 : str.drop 0 = r1 ++ 46 :: (r2 ++ 46 :: (r3 ++ 46 :: (r4 ++ next :: rest))) := text
    obtain ⟨text2, inside1⟩ := drop_behind text1
    obtain ⟨text3, inside2⟩ := drop_behind text2
    obtain ⟨text4, inside3⟩ := drop_behind text3
    have number1 := (ipv4Dotted_iff short (Nat.zero_le _)).mpr
      ⟨r1, _, text1, quad.digits1, rfl, small.1, rfl⟩
    have number2 := (ipv4Dotted_iff short inside1).mpr
      ⟨r2, _, text2, quad.digits2, rfl, small.2.1, rfl⟩
    have number3 := (ipv4Dotted_iff short inside2).mpr
      ⟨r3, _, text3, quad.digits3, rfl, small.2.2.1, rfl⟩
    have number4 := (ipv4Number_iff short inside3).mpr
      ⟨r4, next, rest, text4, quad.digits4, other, rfl, small.2.2.2, rfl⟩
    refine bind_eq_some_iff.mpr ⟨_, number1, ?_⟩
    refine bind_eq_some_iff.mpr ⟨_, number2, ?_⟩
    refine bind_eq_some_iff.mpr ⟨_, number3, ?_⟩
    refine bind_eq_some_iff.mpr ⟨_, number4, ?_⟩
    have read : 0 + r1.length + 1 + r2.length + 1 + r3.length + 1 + r4.length =
        quadLength r1 r2 r3 r4 := by
      unfold quadLength
      omega
    exact congrArg some (Prod.ext (value small) read)

lemma htonl_address (small : a ≤ 255 ∧ b ≤ 255 ∧ c ≤ 255 ∧ d ≤ 255) :
    htonl (a * 2 ^ 24 + b * 2 ^ 16 + c * 2 ^ 8 + d) = address a b c d := by
  have byte {n m : Nat} (same : n % 256 = m % 256) : UInt8.ofNat n = UInt8.ofNat m := by
    apply UInt8.toNat_inj.mp
    rw [UInt8.toNat_ofNat', UInt8.toNat_ofNat']
    exact same
  simp only [htonl, beBytes, address, nil_append, cons_append, List.cons.injEq, and_true]
  exact ⟨byte (by omega), byte (by omega), byte (by omega), byte (by omega)⟩

/-- A result other than zero comes from four numbers of at most 255 between dots, with one more
character behind them, and is the address they make; `bytes_read` has moved behind them. -/
def ReadsAddress (str : Bytes) (bytesRead : Nat) : Prop :=
  ∀ result after, ndpiBytestreamToIpv4 str str.length bytesRead = (result, after) →
    result ≠ htonl 0 → ∃ r1 r2 r3 r4, Quad str r1 r2 r3 r4 ∧
      (digitsValue r1 ≤ 255 ∧ digitsValue r2 ≤ 255 ∧ digitsValue r3 ≤ 255 ∧ digitsValue r4 ≤ 255) ∧
      result = address (digitsValue r1) (digitsValue r2) (digitsValue r3) (digitsValue r4) ∧
      after = wrap16 (bytesRead + quadLength r1 r2 r3 r4)

/-- Four numbers between dots that leave at most 255 modulo 2^32, not all of them 0, and one
of which is not below 2^32. -/
def Wraps (str : Bytes) : Prop :=
  ∃ r1 r2 r3 r4, Quad str r1 r2 r3 r4 ∧
    (seen r1 ≤ 255 ∧ seen r2 ≤ 255 ∧ seen r3 ≤ 255 ∧ seen r4 ≤ 255) ∧
    (seen r1 ≠ 0 ∨ seen r2 ≠ 0 ∨ seen r3 ≠ 0 ∨ seen r4 ≠ 0) ∧
    (2 ^ 32 ≤ digitsValue r1 ∨ 2 ^ 32 ≤ digitsValue r2 ∨ 2 ^ 32 ≤ digitsValue r3 ∨
      2 ^ 32 ≤ digitsValue r4)

lemma ndpiBytestreamToIpv4_of_quad {str : Bytes} (short : str.length < 65536)
    (quad : Quad str r1 r2 r3 r4)
    (small : seen r1 ≤ 255 ∧ seen r2 ≤ 255 ∧ seen r3 ≤ 255 ∧ seen r4 ≤ 255) :
    ndpiBytestreamToIpv4 str str.length bytesRead =
      (address (seen r1) (seen r2) (seen r3) (seen r4),
        wrap16 (bytesRead + quadLength r1 r2 r3 r4)) := by
  have accepted := (ipv4Value_iff short).mpr ⟨r1, r2, r3, r4, quad, small, rfl, rfl⟩
  unfold ndpiBytestreamToIpv4
  rw [accepted]
  dsimp only
  rw [htonl_address small]

lemma address_ne_zero (small : a ≤ 255 ∧ b ≤ 255 ∧ c ≤ 255 ∧ d ≤ 255) :
    address a b c d ≠ htonl 0 ↔ a ≠ 0 ∨ b ≠ 0 ∨ c ≠ 0 ∨ d ≠ 0 := by
  have byte {n : Nat} (fits : n ≤ 255) : UInt8.ofNat n = 0 ↔ n = 0 := by
    rw [← UInt8.toNat_inj, UInt8.toNat_ofNat', Nat.mod_eq_of_lt (by omega)]
    rfl
  have zero : htonl 0 = [0, 0, 0, 0] := rfl
  rw [zero, address, Ne]
  simp only [List.cons.injEq, and_true, byte small.1, byte small.2.1, byte small.2.2.1,
    byte small.2.2.2, not_and_or]

private lemma seen_of_lt {run : Bytes} (small : digitsValue run < 2 ^ 32) :
    seen run = digitsValue run := Nat.mod_eq_of_lt small

/-- The function keeps its promise on exactly the strings whose numbers do not wrap. -/
theorem readsAddress_iff (str : Bytes) (bytesRead : Nat) (short : str.length < 65536) :
    ReadsAddress str bytesRead ↔ ¬Wraps str := by
  constructor
  · rintro reads ⟨r1, r2, r3, r4, quad, small, nonzero, large⟩
    obtain ⟨s1, s2, s3, s4, other, bounded, -, -⟩ := reads _ _
      (ndpiBytestreamToIpv4_of_quad short quad small)
      ((address_ne_zero small).mpr nonzero)
    obtain ⟨rfl, rfl, rfl, rfl⟩ := quad.unique other
    omega
  · intro fits result after returned nonzero
    unfold ndpiBytestreamToIpv4 at returned
    split at returned
    · obtain ⟨rfl, -⟩ := Prod.mk.inj returned
      exact absurd rfl nonzero
    · next val read accepted =>
      obtain ⟨r1, r2, r3, r4, quad, small, rfl, rfl⟩ := (ipv4Value_iff short).mp accepted
      obtain ⟨rfl, rfl⟩ := Prod.mk.inj returned
      rw [htonl_address small] at nonzero ⊢
      have below : ¬(2 ^ 32 ≤ digitsValue r1 ∨ 2 ^ 32 ≤ digitsValue r2 ∨ 2 ^ 32 ≤ digitsValue r3 ∨
          2 ^ 32 ≤ digitsValue r4) := fun large =>
        fits ⟨r1, r2, r3, r4, quad, small, (address_ne_zero small).mp nonzero, large⟩
      have same1 : seen r1 = digitsValue r1 := seen_of_lt (by omega)
      have same2 : seen r2 = digitsValue r2 := seen_of_lt (by omega)
      have same3 : seen r3 = digitsValue r3 := seen_of_lt (by omega)
      have same4 : seen r4 = digitsValue r4 := seen_of_lt (by omega)
      rw [same1, same2, same3, same4] at small ⊢
      exact ⟨r1, r2, r3, r4, quad, small, rfl, rfl⟩

/-- The text `10.0.0.1` and a blank. -/
def tenBlank : Bytes := [49, 48, 46, 48, 46, 48, 46, 49, 32]

theorem readsAddress_ten : ReadsAddress tenBlank 0 ↔ ¬Wraps tenBlank :=
  readsAddress_iff tenBlank 0 (by decide)

/-- The text `4294967297.0.0.1` and a blank: its first number is 2^32 + 1. -/
def wrappedOne : Bytes :=
  [52, 50, 57, 52, 57, 54, 55, 50, 57, 55, 46, 48, 46, 48, 46, 49, 32]

theorem ndpiBytestreamToIpv4_wrapped :
    ndpiBytestreamToIpv4 wrappedOne wrappedOne.length 0 = ([1, 0, 0, 1], 16) ∧
    ¬ReadsAddress wrappedOne 0 := by
  refine ⟨by decide, fun reads => ?_⟩
  obtain ⟨r1, r2, r3, r4, quad, bounded, -, -⟩ := reads [1, 0, 0, 1] 16 (by decide) (by decide)
  have first : Quad wrappedOne [52, 50, 57, 52, 57, 54, 55, 50, 57, 55] [48] [48] [49] :=
    ⟨⟨32, [], rfl, rfl⟩, by simp [Digits, isDigit], by simp [Digits, isDigit],
      by simp [Digits, isDigit], by simp [Digits, isDigit]⟩
  obtain ⟨rfl, -⟩ := first.unique quad
  exact absurd bounded.1 (by decide)

end Ndpi.Guarantees.Bytestream
