import Ndpi.Lib.Scan
import Ndpi.Lib.Words

/-!
# Fields of a message

Walking through a message whose bytes from an offset on are known: what is left behind
a field, and what a scan reads at it.
-/
namespace Ndpi.Lib
open List

section

variable {α : Type*} {p left rest : List α} {offset n : Nat}

/-- What is left from an offset on has the length of the rest. -/
lemma length_of_drop (here : p.drop offset = left) (nonempty : left ≠ []) :
    p.length = offset + left.length := by
  have positive := length_pos_iff.mpr nonempty
  have length := congrArg List.length here
  rw [length_drop] at length
  omega

lemma drop_add_of_drop (here : p.drop offset = first ++ rest) (length : first.length = n) :
    p.drop (offset + n) = rest := by
  rw [← drop_drop, here, drop_left' length]

lemma getElem?_of_drop (here : p.drop offset = left) (i : Nat) : p[offset + i]? = left[i]? := by
  rw [← here, getElem?_drop]

end

namespace Scan

variable {bytes rest : Bytes} {offset bound n : Nat}

lemma yields_byte_at (here : bytes.drop offset = b :: rest) (inside : offset < bound) :
    (byte bytes offset).Yields bound (· = b) := by
  apply (yields_byte inside).weaken
  rintro a rfl
  have read := getElem?_of_drop here 0
  rw [add_zero] at read
  rw [read]
  rfl

lemma yields_be16_at (here : bytes.drop offset = beBytes 2 n ++ rest) (small : n < 65536)
    (inside : offset + 2 ≤ bound) : (be16 bytes offset).Yields bound (· = n) := by
  have first : bytes.drop offset = [UInt8.ofNat (n / 256)] ++ UInt8.ofNat n :: rest := here
  have second := drop_add_of_drop first rfl
  apply yields_bind (yields_byte_at first (by omega))
  rintro high rfl
  refine yields_bind (yields_byte_at second (by omega)) ?_
  rintro low rfl
  exact yields_pure (be16_digits small)

/-- The lower half of a number of four bytes. -/
private lemma beBytes_two_mod (n : Nat) : beBytes 2 (n % 65536) = beBytes 2 n := by
  have byte {a b : Nat} (same : a % 256 = b % 256) : UInt8.ofNat a = UInt8.ofNat b := by
    apply UInt8.toNat_inj.mp
    rw [UInt8.toNat_ofNat', UInt8.toNat_ofNat']
    exact same
  simp only [beBytes, nil_append, cons_append, List.cons.injEq, and_true]
  exact ⟨byte (by omega), byte (by omega)⟩

lemma yields_be32_at (here : bytes.drop offset = beBytes 4 n ++ rest) (small : n < 4294967296)
    (inside : offset + 4 ≤ bound) : (be32 bytes offset).Yields bound (· = n) := by
  have halves : beBytes 4 n = beBytes 2 (n / 65536) ++ beBytes 2 (n % 65536) := by
    rw [beBytes_two_mod, show n / 65536 = n / 256 / 256 by omega]
    simp [beBytes]
  rw [halves, append_assoc] at here
  have second := drop_add_of_drop here rfl
  apply yields_bind (yields_be16_at here (by omega) (by omega))
  rintro high rfl
  refine yields_bind (yields_be16_at second (by omega) (by omega)) ?_
  rintro low rfl
  exact yields_pure (by omega)

end Scan

end Ndpi.Lib
