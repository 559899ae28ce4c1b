import Ndpi.Lib.Fields
import Ndpi.Source.Tls.Dtls

/-!
# Fields in a buffer

What is read at an offset of a buffer, in terms of the bytes from there on.
-/
namespace Ndpi.Refinement.TlsFields
open Lib Source Source.Tls

lemma byteAt_append_left (right : Bytes) (inside : i < left.length) :
    Tls.byteAt (left ++ right) i = Tls.byteAt left i := by
  rw [Tls.byteAt, List.getElem?_append_left inside, Tls.byteAt]

variable (buf : Bytes) (start i : Nat)

lemma byteAt_drop :
    Tls.byteAt (buf.drop start) i = Tls.byteAt buf (start + i) := by
  rw [Tls.byteAt, List.getElem?_drop, Tls.byteAt]

lemma be16At_drop : be16At (buf.drop start) i = be16At buf (start + i) := by
  rw [be16At, be16At, byteAt_drop, byteAt_drop, add_assoc]

lemma be24At_drop : be24At (buf.drop start) i = be24At buf (start + i) := by
  rw [be24At, be24At, byteAt_drop, be16At_drop, add_assoc]

lemma be16At_lt (i : Nat) : be16At buf i < 65536 := by
  have high := UInt8.toNat_lt (Tls.byteAt buf i)
  have low := UInt8.toNat_lt (Tls.byteAt buf (i + 1))
  unfold be16At
  omega

variable {p left rest : Bytes} {offset n : Nat}

section
variable (here : p.drop offset = left)
include here

lemma byteAt_of_drop (i : Nat) : Tls.byteAt p (offset + i) = Tls.byteAt left i := by
  rw [← here, byteAt_drop]

lemma be16At_of_drop (i : Nat) : be16At p (offset + i) = be16At left i := by
  rw [← here, be16At_drop]

lemma be24At_of_drop (i : Nat) : be24At p (offset + i) = be24At left i := by
  rw [← here, be24At_drop]

end

/-- A field of one byte. -/
lemma byteAt_field (here : p.drop offset = [UInt8.ofNat n] ++ rest) (small : n < 256) :
    (Tls.byteAt p offset).toNat = n := by
  have first : Tls.byteAt p offset = UInt8.ofNat n := byteAt_of_drop here 0
  rw [first, UInt8.toNat_ofNat', Nat.mod_eq_of_lt small]

/-- A field of two bytes. -/
lemma be16At_field (here : p.drop offset = beBytes 2 n ++ rest) (small : n < 65536) :
    be16At p offset = n :=
  (be16At_of_drop here 0).trans (be16_digits small)

/-- A field of three bytes. -/
lemma be24At_field (here : p.drop offset = beBytes 3 n ++ rest) (small : n < 16777216) :
    be24At p offset = n :=
  (be24At_of_drop here 0).trans (be24_digits small)

end Ndpi.Refinement.TlsFields
