import Mathlib.Data.List.Basic

/-!
# Sets of positions as bytes of bits

A set of positions kept as a list of bytes, position `i` in bit `i % 8` of byte
`i / 8`: what writing into its bytes does to the set, and how a whole range of
positions is found to be present by comparing bytes.
-/
namespace Ndpi.Lib

abbrev Bitmap := List (BitVec 8)

namespace Bitmap

def bitAt (bits : Bitmap) (i : Nat) : Bool := (bits[i / 8]?.getD 0#8).getLsbD (i % 8)

/-- `count` consecutive bytes overwritten by `0xff`. -/
def fillBytes (bits : Bitmap) (first : Nat) : Nat → Bitmap
  | 0 => bits
  | count + 1 => fillBytes (bits.set first 255#8) (first + 1) count

@[simp] lemma fillBytes_length (bits : Bitmap) (first count : Nat) :
    (bits.fillBytes first count).length = bits.length := by
  induction count generalizing bits first with
  | zero => rfl
  | succ count ih => rw [fillBytes, ih, List.length_set]

lemma bitAt_replicate_zero (count i : Nat) : bitAt (List.replicate count 0#8) i = false := by
  rw [bitAt, List.getElem?_replicate]
  split <;> simp

variable (bits : Bitmap)

lemma bitAt_or (mask : BitVec 8) (i : Nat) (inside : k < bits.length) :
    bitAt (bits.modify k (· ||| mask)) i =
      (bitAt bits i || (decide (i / 8 = k) && mask.getLsbD (i % 8))) := by
  unfold bitAt
  by_cases here : i / 8 = k
  · rw [here, List.getElem?_modify_eq, List.getElem?_eq_getElem inside]
    simp
  · rw [List.getElem?_modify_ne _ _ (Ne.symm here)]
    simp [here]

lemma bitAt_full (inside : k < bits.length) :
    bitAt (bits.set k 255#8) i = (bitAt bits i || decide (i / 8 = k)) := by
  unfold bitAt
  by_cases here : i / 8 = k
  · have full : (255#8 : BitVec 8).getLsbD (i % 8) = true := by
      have := Nat.mod_lt i (show 0 < 8 by decide)
      generalize i % 8 = j at this
      revert j
      decide
    rw [here, List.getElem?_set_self inside, Option.getD_some, full]
    simp
  · rw [List.getElem?_set_ne (Ne.symm here)]
    simp [here]

lemma bitAt_fillBytes (first count i : Nat) (inside : first + count ≤ bits.length) :
    bitAt (bits.fillBytes first count) i =
      (bitAt bits i || decide (first ≤ i / 8 ∧ i / 8 < first + count)) := by
  induction count generalizing bits first with
  | zero =>
    have none : ¬(first ≤ i / 8 ∧ i / 8 < first + 0) := by omega
    rw [fillBytes, decide_eq_false none, Bool.or_false]
  | succ count ih =>
    rw [fillBytes, ih _ _ (by rw [List.length_set]; omega), bitAt_full _ (by omega),
      Bool.or_assoc, ← Bool.decide_or]
    congr 2
    apply propext
    omega

/-- A byte is determined by its eight bits. -/
lemma byte_eq_iff (byte mask : BitVec 8) :
    byte = mask ↔ ∀ j, j < 8 → byte.getLsbD j = mask.getLsbD j := by
  constructor
  · rintro rfl _ _
    rfl
  · exact BitVec.eq_of_getLsbD_eq

lemma bitAt_byte (k j : Nat) (small : j < 8) :
    bitAt bits (8 * k + j) = (bits[k]?.getD 0#8).getLsbD j := by
  have byte : (8 * k + j) / 8 = k := by omega
  have bit : (8 * k + j) % 8 = j := by omega
  rw [bitAt, byte, bit]

/-- The first `len` positions are all present and none of the last byte's others,
exactly if the bytes are those of a full range. -/
lemma full_range_iff (lastBits : ∀ j, j < 8 → last.getLsbD j = decide (j < len % 8))
    (above : ∀ i, len ≤ i → bitAt bits i = false) :
    (∀ i, i < len → bitAt bits i = true) ↔
      (∀ k, k < len / 8 → bits[k]?.getD 0#8 = 255#8) ∧
        (len % 8 ≠ 0 → bits[len / 8]?.getD 0#8 = last) := by
  have full : ∀ j, j < 8 → (255#8 : BitVec 8).getLsbD j = true := by decide
  constructor
  · intro present
    refine ⟨fun k low => ?_, fun _ => ?_⟩
    · refine (byte_eq_iff _ _).mpr fun j small => ?_
      rw [← bitAt_byte bits k j small, full j small]
      exact present _ (by omega)
    · refine (byte_eq_iff _ _).mpr fun j small => ?_
      rw [← bitAt_byte bits _ j small, lastBits j small]
      by_cases low : j < len % 8
      · rw [decide_eq_true low]
        exact present _ (by omega)
      · rw [decide_eq_false low]
        exact above _ (by omega)
  · rintro ⟨bytes, rest⟩ i low
    have split : i = 8 * (i / 8) + i % 8 := (Nat.div_add_mod i 8).symm
    have small : i % 8 < 8 := Nat.mod_lt _ (by decide)
    rw [split, bitAt_byte bits _ _ small]
    by_cases inner : i / 8 < len / 8
    · rw [bytes _ inner]
      exact full _ small
    · have edge : i / 8 = len / 8 := by omega
      rw [edge, rest (by omega), lastBits _ small]
      exact decide_eq_true (by omega)

end Bitmap
end Ndpi.Lib
