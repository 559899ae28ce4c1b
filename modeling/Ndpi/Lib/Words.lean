import Mathlib.Tactic.IntervalCases
import Ndpi.Lib.Memory

/-!
# Machine words, big-endian fields and decimal text

C's unsigned 16-bit and 32-bit arithmetic as naturals with the wrap written out, the
fixed-width big-endian fields that `htons`/`htonl` and their inverses produce,
and the decimal text that `printf` produces for integers.
-/
namespace Ndpi.Lib
open List

def wrap16 (n : Nat) : Nat := n % 65536

def wrap32 (n : Nat) : Nat := n % 4294967296

/-- Subtraction of unsigned 32-bit operands. -/
def sub32 (a b : Nat) : Nat := if b ≤ a then a - b else a + 4294967296 - b

/-- An `int` assigned to an unsigned 16-bit variable. -/
def toUint16 (z : Int) : Nat := (z % 65536).toNat

/-- The value an unsigned 32-bit argument takes as an `int` parameter. -/
def toInt32 (n : Nat) : Int := if n < 2147483648 then n else (n : Int) - 4294967296

lemma wrap16_of_lt (small : n < 65536) : wrap16 n = n := Nat.mod_eq_of_lt small

variable (n : Nat)

lemma wrap16_lt : wrap16 n < 65536 := Nat.mod_lt _ (by decide)

lemma toUint16_of_lt {n : Nat} (small : n < 65536) : toUint16 n = n := by
  unfold toUint16
  omega

lemma wrap32_of_lt {n : Nat} (small : n < 4294967296) : wrap32 n = n := Nat.mod_eq_of_lt small

lemma wrap32_lt : wrap32 n < 4294967296 := Nat.mod_lt _ (by decide)

lemma sub32_of_le (ordered : b ≤ a) : sub32 a b = a - b := if_pos ordered

lemma sub32_of_lt (under : a < b) : sub32 a b = a + 4294967296 - b :=
  if_neg (not_le.mpr under)

/-- Big-endian field of `width` bytes; higher digits are cut off. -/
def beBytes : Nat → Nat → Bytes
  | 0, _ => []
  | width + 1, n => beBytes width (n / 256) ++ [UInt8.ofNat n]

def beNat (field : Bytes) : Nat := field.foldl (fun acc b => acc * 256 + b.toNat) 0

@[simp] lemma beBytes_length (width n : Nat) : (beBytes width n).length = width := by
  induction width generalizing n with
  | zero => rfl
  | succ width ih => simp [beBytes, ih]

lemma beNat_append :
    beNat (field ++ [b]) = beNat field * 256 + b.toNat := by
  simp [beNat, foldl_append]

/-- What follows a field are lower digits. -/
lemma beNat_append_div (field more : Bytes) :
    beNat (field ++ more) / 256 ^ more.length = beNat field := by
  induction more generalizing field with
  | nil => simp
  | cons b more ih =>
    have small := b.toNat_lt
    rw [append_cons, length_cons, pow_succ, ← Nat.div_div_eq_div_mul, ih, beNat_append]
    omega

/-- Reading a field back gives the value modulo the field's range. -/
lemma beNat_beBytes (width n : Nat) : beNat (beBytes width n) = n % 256 ^ width := by
  induction width generalizing n with
  | zero => simp [beBytes, beNat, Nat.mod_one]
  | succ width ih =>
    have split : n % 256 ^ (width + 1) = n % 256 + 256 * (n / 256 % 256 ^ width) := by
      rw [pow_succ, mul_comm, Nat.mod_mul]
    have low : (UInt8.ofNat n).toNat = n % 256 := by rw [UInt8.toNat_ofNat']
    rw [beBytes, beNat_append, ih, low, split]
    omega

lemma beNat_beBytes_of_lt {n : Nat} (fits : n < 256 ^ width) :
    beNat (beBytes width n) = n := by rw [beNat_beBytes, Nat.mod_eq_of_lt fits]

/-- The two digits of a 16-bit number. -/
lemma be16_digits {n : Nat} (small : n < 65536) :
    (UInt8.ofNat (n / 256)).toNat * 256 + (UInt8.ofNat n).toNat = n := by
  rw [UInt8.toNat_ofNat', UInt8.toNat_ofNat']
  omega

lemma beBytes_two (high low : UInt8) : beBytes 2 (high.toNat * 256 + low.toNat) = [high, low] := by
  have first := high.toNat_lt
  have second := low.toNat_lt
  have upper : UInt8.ofNat ((high.toNat * 256 + low.toNat) / 256) = high := by
    apply UInt8.toNat_inj.mp
    rw [UInt8.toNat_ofNat']
    omega
  have lower : UInt8.ofNat (high.toNat * 256 + low.toNat) = low := by
    apply UInt8.toNat_inj.mp
    rw [UInt8.toNat_ofNat']
    omega
  rw [beBytes, beBytes, beBytes, upper, lower]
  rfl

lemma be24_digits {n : Nat} (small : n < 16777216) :
    (UInt8.ofNat (n / 256 / 256)).toNat * 65536 +
      ((UInt8.ofNat (n / 256)).toNat * 256 + (UInt8.ofNat n).toNat) = n := by
  rw [UInt8.toNat_ofNat', UInt8.toNat_ofNat', UInt8.toNat_ofNat']
  omega

/-- A signed 32-bit value that fits one or two bytes is determined by them. -/
lemma bmod_narrow {range : Nat} (width : range = 256 ∨ range = 65536)
    (low : -(range / 2 : Int) ≤ (n : Int).bmod 4294967296)
    (high : (n : Int).bmod 4294967296 < (range / 2 : Int)) :
    ((n % range : Nat) : Int).bmod range = (n : Int).bmod 4294967296 := by
  simp only [Int.bmod_def] at low high ⊢
  rcases width with rfl | rfl
  · split at low <;> split <;> omega
  · split at low <;> split <;> omega

def isDigit (b : UInt8) : Bool := 48 ≤ b && b ≤ 57

/-- `%u` and `%llu`. -/
def decimal (n : Nat) : Bytes := (Nat.toDigits 10 n).map fun c => UInt8.ofNat c.toNat

/-- `%d` and `%lld`. -/
def decimalInt (z : Int) : Bytes := if z < 0 then 45 :: decimal z.natAbs else decimal z.natAbs

def digitsValue (text : Bytes) : Nat := text.foldl (fun acc b => acc * 10 + (b.toNat - 48)) 0

lemma digitsValue_append (text : Bytes) (b : UInt8) :
    digitsValue (text ++ [b]) = digitsValue text * 10 + (b.toNat - 48) := by
  simp [digitsValue, foldl_append]

private lemma digitChar_byte (small : d < 10) :
    UInt8.ofNat (Nat.digitChar d).toNat = UInt8.ofNat (48 + d) := by
  interval_cases d <;> rfl

/-- The text of a number is the text of its tenth followed by its last digit. -/
lemma decimal_eq :
    decimal n = if n < 10 then [UInt8.ofNat (48 + n)]
      else decimal (n / 10) ++ [UInt8.ofNat (48 + n % 10)] := by
  unfold decimal
  rw [Nat.toDigits_eq_if (by decide)]
  split
  · next small => simp [digitChar_byte small]
  · simp [digitChar_byte (Nat.mod_lt _ (by decide))]

lemma digit_toNat (small : d < 10) : (UInt8.ofNat (48 + d)).toNat = 48 + d := by
  rw [UInt8.toNat_ofNat']
  omega

lemma isDigit_ofNat (small : d < 10) : isDigit (UInt8.ofNat (48 + d)) = true := by
  interval_cases d <;> rfl

lemma decimal_ne_nil : decimal n ≠ [] := by
  rw [decimal_eq]
  split <;> simp

lemma decimal_digits : ∀ b ∈ decimal n, isDigit b = true := by
  induction n using Nat.strong_induction_on with
  | _ n ih =>
    rw [decimal_eq]
    split
    · next small =>
      intro b hb
      rw [mem_singleton.mp hb]
      exact isDigit_ofNat small
    · next large =>
      intro b hb
      rcases mem_append.mp hb with head | last
      · exact ih (n / 10) (by omega) b head
      · rw [mem_singleton.mp last]
        exact isDigit_ofNat (Nat.mod_lt _ (by decide))

lemma digitsValue_decimal : digitsValue (decimal n) = n := by
  induction n using Nat.strong_induction_on with
  | _ n ih =>
    rw [decimal_eq]
    split
    · next small => simp only [digitsValue, foldl_cons, foldl_nil, digit_toNat small]; omega
    · next large =>
      rw [digitsValue_append, ih (n / 10) (by omega), digit_toNat (Nat.mod_lt _ (by decide))]
      omega

/-- No leading zero, except for the number zero itself. -/
lemma decimal_head (positive : 0 < n) : ∃ b rest, decimal n = b :: rest ∧ b ≠ 48 := by
  induction n using Nat.strong_induction_on with
  | _ n ih =>
    rw [decimal_eq]
    split
    · next small =>
      refine ⟨_, _, rfl, ?_⟩
      interval_cases n <;> decide
    · next large =>
      obtain ⟨b, rest, text, nonzero⟩ := ih (n / 10) (by omega) (by omega)
      exact ⟨b, rest ++ [UInt8.ofNat (48 + n % 10)], by rw [text]; rfl, nonzero⟩

lemma decimal_zero : decimal 0 = [48] := rfl

lemma decimal_length_le {n : Nat} (positive : 0 < width) (fits : n < 10 ^ width) :
    (decimal n).length ≤ width := by
  rw [decimal, length_map]
  exact (Nat.length_toDigits_le_iff (by decide) positive).mpr fits

end Ndpi.Lib
