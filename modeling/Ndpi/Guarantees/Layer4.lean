import Ndpi.Source.Layer4

/-!
# The layer 4 part of a packet

Whatever the packet, the header walk ends and reads inside the packet, and the part
it finds lies inside; for IPv6 it ends where the payload does. A later fragment is
refused in IPv6, and in IPv4 only if it is one of UDP.
-/
namespace Ndpi.Guarantees.Layer4
open Lib Source.Layer4 List Option Access Memory

lemma byteAt_inside (inside : offset < bound) : (byteAt m offset).Inside bound := by
  rw [byteAt, inside_bind]
  exact ⟨(fetch_inside m offset 1 bound).mpr (.inr inside), inside_pure⟩

lemma wordAt_inside (inside : offset + 2 ≤ bound) : (wordAt m offset).Inside bound := by
  rw [wordAt, inside_bind]
  exact ⟨(fetch_inside m offset 2 bound).mpr (.inr inside), inside_pure⟩

section
variable {m : Memory} {w : Walk}

/-- An iteration reads no further than the part it walks along. -/
lemma extensionStep_inside (within : w.l4ptr + w.l4len ≤ bound) :
    (extensionStep m w).Inside bound := by
  unfold extensionStep
  split
  · split
    · exact inside_pure
    · split
      · split
        · exact inside_pure
        · split
          · exact inside_pure
          · rw [inside_bind, inside_bind]
            refine ⟨byteAt_inside (by omega), wordAt_inside (by omega), ?_⟩
            split <;> exact inside_pure
      · split
        · exact inside_pure
        · rw [inside_bind]
          refine ⟨byteAt_inside (by omega), ?_⟩
          dsimp only
          split
          · exact inside_pure
          · split
            · exact inside_pure
            · rw [inside_bind]
              exact ⟨byteAt_inside (by omega), inside_pure⟩
  · exact inside_pure

/-- The walk reads inside and keeps the end of the part it walks along. -/
lemma walk_spec (within : w.l4ptr + w.l4len ≤ bound) :
    (handleIpv6ExtensionHeaders m w).Inside bound ∧
      ∀ result, (handleIpv6ExtensionHeaders m w).val = some result →
        result.l4ptr + result.l4len = w.l4ptr + w.l4len := by
  fun_induction handleIpv6ExtensionHeaders m w with
  | case1 w result leaves =>
    refine ⟨extensionStep_inside within, ?_⟩
    rintro result rfl
    have moves := extensionStep_moves m w
    rw [leaves] at moves
    cases moves
    rfl
  | case2 w next stays rest ih =>
    have moves := extensionStep_moves m w
    rw [stays] at moves
    have same : next.l4ptr + next.l4len = w.l4ptr + w.l4len := by
      cases moves with
      | fragment type enough first =>
        dsimp only
        omega
      | header type length enough =>
        dsimp only
        omega
    obtain ⟨inside, ends⟩ := ih (by omega)
    refine ⟨?_, fun result found => (ends result found).trans same⟩
    intro index read
    rcases mem_append.mp read with early | late
    · exact extensionStep_inside within index early
    · exact inside index late

end

variable (p : Packet)

lemma iphIsValid_inside (large : 20 ≤ p.len) : (iphIsValidAndNotFragmented p).Inside p.len := by
  unfold iphIsValidAndNotFragmented
  rw [inside_bind, inside_bind]
  refine ⟨byteAt_inside (by omega), byteAt_inside (by omega), ?_⟩
  split
  · rw [inside_bind, inside_bind]
    exact ⟨wordAt_inside (by omega), wordAt_inside (by omega), inside_pure⟩
  · exact inside_pure

lemma ipv4L4_spec (large : 20 ≤ p.len) :
    (ipv4L4 p).Inside p.len ∧ ∀ l4, (ipv4L4 p).val = some l4 → l4.l4len ≠ 0 →
      l4.l4ptr + l4.l4len ≤ p.len := by
  unfold ipv4L4
  constructor
  · rw [inside_bind]
    refine ⟨iphIsValid_inside p large, ?_⟩
    split
    · rw [inside_bind, inside_bind]
      refine ⟨wordAt_inside (by omega), byteAt_inside (by omega), ?_⟩
      rw [inside_bind]
      exact ⟨byteAt_inside (by omega), inside_pure⟩
    · exact inside_pure
  · intro l4 found some
    rw [bind_val] at found
    split at found
    · simp only [bind_val, pure_val, Option.some.injEq] at found
      subst found
      have bound : (if min (wordAt p.data 2).val p.len = 0 then p.len
          else min (wordAt p.data 2).val p.len) ≤ p.len := by
        split <;> omega
      dsimp only at some ⊢
      generalize (if min (wordAt p.data 2).val p.len = 0 then p.len
        else min (wordAt p.data 2).val p.len) = len at some bound ⊢
      by_cases longer : len > (byteAt p.data 0).val % 16 * 4
      · rw [if_pos longer]
        omega
      · rw [if_neg longer] at some
        exact absurd rfl some
    · cases found

lemma ipv6L4_spec (large : 40 ≤ p.len) :
    (ipv6L4 p).Inside p.len ∧ ∀ l4, (ipv6L4 p).val = some l4 →
      l4.l4ptr + l4.l4len = 40 + (wordAt p.data 4).val ∧ l4.l4ptr + l4.l4len ≤ p.len := by
  unfold ipv6L4
  rw [inside_bind, bind_val]
  split
  · next fits =>
    have within : 40 + (wordAt p.data 4).val ≤ p.len := by omega
    obtain ⟨inside, ends⟩ := @walk_spec p.data
      ⟨p.len - 40, 40, (wordAt p.data 4).val, (byteAt p.data 6).val⟩ p.len within
    rw [inside_bind, inside_bind]
    refine ⟨⟨wordAt_inside (by omega), byteAt_inside (by omega), inside, inside_pure⟩, ?_⟩
    intro l4 found
    simp only [bind_val, pure_val] at found
    obtain ⟨walked, result, rfl⟩ := map_eq_some_iff.mp found
    have total := ends walked result
    dsimp only at total ⊢
    omega
  · exact ⟨⟨wordAt_inside (by omega), inside_pure⟩, fun l4 found => by cases found⟩

/-- Every packet's bytes are read inside it, and if a layer 4 part is found, it lies
inside unless it is empty, and ends in IPv6 where the payload length says. -/
theorem l4_slice_inside (p : Packet) (flags : DetectionFlags) (l4 : L4)
    (found : (detectionGetL4Internal p flags).val = some l4) :
    (detectionGetL4Internal p flags).Inside p.len ∧
      (l4.l4len ≠ 0 → l4.l4ptr + l4.l4len ≤ p.len) ∧
      ((byteAt p.data 0).val / 16 = 6 → l4.l4ptr + l4.l4len = 40 + (wordAt p.data 4).val) := by
  unfold detectionGetL4Internal at found ⊢
  split at found
  · cases found
  · next large =>
    rw [if_neg large, inside_bind]
    rw [bind_val] at found
    have first : (byteAt p.data 0).Inside p.len := byteAt_inside (by omega)
    split at found
    · next v4 =>
      split at found
      · cases found
      · next asked =>
        obtain ⟨inside, within⟩ := ipv4L4_spec p (by omega)
        rw [if_pos v4, if_neg asked]
        exact ⟨⟨first, inside⟩, within l4 found, fun v6 => absurd v6 (by omega)⟩
    · next notV4 =>
      split at found
      · next v6 =>
        split at found
        · cases found
        · next asked =>
          obtain ⟨inside, within⟩ := ipv6L4_spec p v6.2
          obtain ⟨ends, last⟩ := within l4 found
          rw [if_neg notV4, if_pos v6, if_neg asked]
          exact ⟨⟨first, inside⟩, fun _ => last, fun _ => ends⟩
      · cases found

/-- A packet of zeros after its first bytes. -/
def paddedPacket (head : Bytes) : Packet :=
  ⟨⟨(head ++ List.replicate 40 0).take 40, []⟩, by
    show ((head ++ List.replicate 40 0).take 40).length < 65536
    rw [List.length_take]
    omega⟩

/-- A UDP datagram of 8 bytes in IPv6, behind hop-by-hop and destination options. -/
def extendedPacket : Packet :=
  ⟨⟨[0x60, 0, 0, 0, 0, 24, 0, 64] ++ List.replicate 32 0 ++ [60, 0, 0, 0, 0, 0, 0, 0] ++
    [17, 0, 0, 0, 0, 0, 0, 0] ++ List.replicate 8 0, []⟩, by decide⟩

theorem l4_slice_inside_sample :
    (detectionGetL4Internal extendedPacket {}).Inside 64 ∧
      56 + 8 ≤ 64 ∧ 56 + 8 = 40 + (wordAt extendedPacket.data 4).val := by
  have found : (detectionGetL4Internal extendedPacket {}).val = some ⟨56, 8, 17⟩ := by
    decide +kernel
  obtain ⟨inside, within, whole⟩ := l4_slice_inside _ _ _ found
  exact ⟨inside, within (by decide), whole (by decide +kernel)⟩

section
variable {m : Memory} {w : Walk}

/-- The chain of extension headers inside the first `bound` bytes, from a header at
`offset` of type `nxtHdr` on, comes to a fragment header with an offset. -/
inductive LaterFragment (m : Memory) (bound : Nat) : Nat → Nat → Prop
  | here {offset : Nat} (inside : offset + 8 ≤ bound)
      (later : (wordAt m (offset + 2)).val / 8 ≠ 0) : LaterFragment m bound offset 44
  | pastFragment {offset : Nat} (inside : offset + 8 ≤ bound)
      (rest : LaterFragment m bound (offset + 8) (byteAt m offset).val) :
      LaterFragment m bound offset 44
  | pastHeader {offset nxtHdr size : Nat} (type : nxtHdr ∈ [0, 43, 60, 135])
      (length : size = (byteAt m (offset + 1)).val * 8 + 8) (inside : offset + size ≤ bound)
      (rest : LaterFragment m bound (offset + size) (byteAt m offset).val) :
      LaterFragment m bound offset nxtHdr

lemma walk_leave (leaves : (extensionStep m w).val = .leave result) :
    (handleIpv6ExtensionHeaders m w).val = result := by
  rw [handleIpv6ExtensionHeaders.eq_def]
  split
  · next same =>
    rw [leaves] at same
    cases same
    rfl
  · next same =>
    rw [leaves] at same
    cases same

lemma walk_stay {next : Walk} (stays : (extensionStep m w).val = .stay next) :
    (handleIpv6ExtensionHeaders m w).val = (handleIpv6ExtensionHeaders m next).val := by
  rw [handleIpv6ExtensionHeaders.eq_def]
  split
  · next same =>
    rw [stays] at same
    cases same
  · next same =>
    rw [stays] at same
    cases same
    rfl

/-- The walk refuses every later fragment it comes to. -/
lemma walk_refuses (chain : LaterFragment m bound offset nxtHdr)
    (here : w.l4ptr = offset) (type : w.nxtHdr = nxtHdr) (within : bound ≤ w.l4ptr + w.l3len) :
    (handleIpv6ExtensionHeaders m w).val = none := by
  induction chain generalizing w with
  | here inside later =>
    have moves := extensionStep_moves m w
    generalize turn : (extensionStep m w).val = result at moves
    cases moves with
    | refused => exact walk_leave turn
    | arrived ended => exact absurd ⟨by omega, by rw [type]; rfl⟩ ended
    | fragment _ _ first =>
      rw [here] at first
      exact absurd first later
    | header other => exact absurd type other
  | pastFragment inside rest ih =>
    have moves := extensionStep_moves m w
    generalize turn : (extensionStep m w).val = result at moves
    cases moves with
    | refused => exact walk_leave turn
    | arrived ended => exact absurd ⟨by omega, by rw [type]; rfl⟩ ended
    | fragment =>
      rw [walk_stay turn]
      exact ih (by dsimp only; omega) (by rw [here]) (by dsimp only; omega)
    | header other => exact absurd type other
  | @pastHeader offset nxtHdr size kind length inside rest ih =>
    have extension : isExtension w.nxtHdr = true := by
      rw [type]
      simp only [mem_cons, not_mem_nil, or_false] at kind
      rcases kind with rfl | rfl | rfl | rfl <;> rfl
    have moves := extensionStep_moves m w
    generalize turn : (extensionStep m w).val = result at moves
    cases moves with
    | refused => exact walk_leave turn
    | arrived ended => exact absurd ⟨by omega, extension⟩ ended
    | fragment other =>
      rw [type] at other
      subst other
      simp at kind
    | @header size' other length' =>
      rw [here, ← length] at length'
      subst length'
      rw [walk_stay turn]
      exact ih (by dsimp only; omega) (by rw [here]) (by dsimp only; omega)

end

/-- A packet whose IP header, or IPv6 fragment header, has a fragment offset. -/
def NonFirstFragment (p : Packet) : Prop :=
  (20 ≤ p.len ∧ (byteAt p.data 0).val / 16 = 4 ∧ (wordAt p.data 6).val % 8192 ≠ 0) ∨
    (40 ≤ p.len ∧ (byteAt p.data 0).val / 16 = 6 ∧
      LaterFragment p.data p.len 40 (byteAt p.data 6).val)

/-- A later IPv4 fragment is refused only if it is one of UDP. -/
lemma ipv4L4_refuses_iff {p : Packet} (later : (wordAt p.data 6).val % 8192 ≠ 0) :
    (ipv4L4 p).val = none ↔ (byteAt p.data 9).val = 17 := by
  have valid : (iphIsValidAndNotFragmented p).val = false ↔ (byteAt p.data 9).val = 17 := by
    unfold iphIsValidAndNotFragmented
    simp only [bind_val]
    split
    · next udp => simp [udp, later]
    · next other => simp [other]
  unfold ipv4L4
  rw [bind_val, ← valid]
  cases (iphIsValidAndNotFragmented p).val <;> simp

lemma ipv6L4_refuses {p : Packet} (large : 40 ≤ p.len)
    (chain : LaterFragment p.data p.len 40 (byteAt p.data 6).val) : (ipv6L4 p).val = none := by
  unfold ipv6L4
  rw [bind_val]
  split
  · have refused := walk_refuses (w := ⟨p.len - 40, 40, (wordAt p.data 4).val,
      (byteAt p.data 6).val⟩) chain rfl rfl (by dsimp only; omega)
    simp [refused]
  · rfl

end Ndpi.Guarantees.Layer4
