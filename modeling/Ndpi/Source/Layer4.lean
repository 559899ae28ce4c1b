import Ndpi.Lib.Access
import Ndpi.Lib.Loop
import Ndpi.Lib.Words

/-!
# From the IP packet to its transport header

`ndpi_main.c:7689-7858`: the walk along the IPv6 extension headers, the check of an
IPv4 header, and the function that finds the layer 4 part of a packet. Pointers into
the packet are offsets; what the functions read is recorded.
-/
namespace Ndpi.Source.Layer4
open Lib

/-- A packet of a length that `l3_len` can hold. -/
structure Packet where
  data : Memory
  short : data.cells.length < 65536

def Packet.len (p : Packet) : Nat := p.data.cells.length

/-- A single byte. -/
def byteAt (m : Memory) (offset : Nat) : Access Nat := do
  let bytes ← m.fetch offset 1
  pure (beNat bytes)

/-- `ntohs` of the two bytes at `offset`. -/
def wordAt (m : Memory) (offset : Nat) : Access Nat := do
  let bytes ← m.fetch offset 2
  pure (beNat bytes)

/-- The arguments of the walk; `l4ptr` is the offset of the current header. -/
structure Walk where
  l3len : Nat
  l4ptr : Nat
  l4len : Nat
  nxtHdr : Nat
  deriving DecidableEq, Repr

/-- The header types the walk goes on at. -/
def isExtension (nxtHdr : Nat) : Bool := nxtHdr ∈ [0, 43, 44, 60, 135, 59]

/-- One iteration of the loop in `ndpi_handle_ipv6_extension_headers`. It leaves
with `none` for the return value 1. -/
def extensionStep (m : Memory) (w : Walk) : Access (Turn Walk (Option Walk)) :=
  if w.l3len > 1 ∧ isExtension w.nxtHdr then
    if w.nxtHdr = 59 then pure (.leave none)
    else if w.nxtHdr = 44 then
      if w.l4len < 8 then pure (.leave none)
      else if w.l3len < 5 then pure (.leave none)
      else do
        let nxtHdr ← byteAt m w.l4ptr
        let fragOffset ← wordAt m (w.l4ptr + 2)
        if fragOffset / 8 ≠ 0 then pure (.leave none)
        else pure (.stay ⟨w.l3len - 5, w.l4ptr + 8, w.l4len - 8, nxtHdr⟩)
    else if w.l4len < 2 then pure (.leave none)
    else do
      let steps ← byteAt m (w.l4ptr + 1)
      let ehdrLen := steps * 8 + 8
      if ehdrLen > w.l3len then pure (.leave none)
      else if w.l4len < ehdrLen then pure (.leave none)
      else do
        let nxtHdr ← byteAt m w.l4ptr
        pure (.stay ⟨w.l3len - ehdrLen, w.l4ptr + ehdrLen, w.l4len - ehdrLen, nxtHdr⟩)
  else pure (.leave (some w))

/-- What an iteration can come to: it is refused, it has arrived where no extension
header is left, or it goes past a fragment header or another one. -/
inductive Moves (m : Memory) (w : Walk) : Turn Walk (Option Walk) → Prop
  | refused : Moves m w (.leave none)
  | arrived (ended : ¬(w.l3len > 1 ∧ isExtension w.nxtHdr)) : Moves m w (.leave (some w))
  | fragment (type : w.nxtHdr = 44) (enough : 8 ≤ w.l4len)
      (first : (wordAt m (w.l4ptr + 2)).val / 8 = 0) :
      Moves m w (.stay ⟨w.l3len - 5, w.l4ptr + 8, w.l4len - 8, (byteAt m w.l4ptr).val⟩)
  | header {size : Nat} (type : w.nxtHdr ≠ 44)
      (length : size = (byteAt m (w.l4ptr + 1)).val * 8 + 8) (enough : size ≤ w.l4len) :
      Moves m w (.stay ⟨w.l3len - size, w.l4ptr + size, w.l4len - size, (byteAt m w.l4ptr).val⟩)

lemma extensionStep_moves (m : Memory) (w : Walk) : Moves m w (extensionStep m w).val := by
  unfold extensionStep
  split
  · split
    · exact .refused
    · split
      · next type =>
        split
        · exact .refused
        · next enough =>
          split
          · exact .refused
          · simp only [Access.bind_val]
            split
            · exact .refused
            · next first => exact .fragment type (Nat.le_of_not_lt enough) (not_not.mp first)
      · next type =>
        split
        · exact .refused
        · simp only [Access.bind_val]
          split
          · exact .refused
          · split
            · exact .refused
            · next enough => exact .header type rfl (Nat.le_of_not_lt enough)
  · next ended => exact .arrived ended

lemma extensionStep_shorter
    (stays : (extensionStep m w).val = .stay next) : next.l4len < w.l4len := by
  have moves := extensionStep_moves m w
  rw [stays] at moves
  cases moves with
  | fragment type enough first =>
    dsimp only
    omega
  | header type length enough =>
    dsimp only
    omega

/-- `ndpi_handle_ipv6_extension_headers`. -/
def handleIpv6ExtensionHeaders (m : Memory) (w : Walk) : Access (Option Walk) :=
  match _turn : (extensionStep m w).val with
  | .leave result => ⟨result, (extensionStep m w).reads⟩
  | .stay next =>
    let rest := handleIpv6ExtensionHeaders m next
    ⟨rest.val, (extensionStep m w).reads ++ rest.reads⟩
termination_by w.l4len
decreasing_by
  exact extensionStep_shorter _turn

/-- `iph_is_valid_and_not_fragmented`. -/
def iphIsValidAndNotFragmented (p : Packet) : Access Bool := do
  let first ← byteAt p.data 0
  let protocol ← byteAt p.data 9
  if protocol = 17 then do
    let totLen ← wordAt p.data 2
    let fragOff ← wordAt p.data 6
    let ihl := first % 16
    pure (!(p.len < ihl * 4 ∨ p.len < totLen ∨ totLen < ihl * 4 ∨ fragOff % 8192 ≠ 0))
  else pure true

/-- What `ndpi_detection_get_l4` returns: where the layer 4 part begins, its length
and its protocol. -/
structure L4 where
  l4ptr : Nat
  l4len : Nat
  l4protocol : Nat
  deriving DecidableEq, Repr

/-- The IPv4 branch of `ndpi_detection_get_l4_internal`. -/
def ipv4L4 (p : Packet) : Access (Option L4) := do
  let valid ← iphIsValidAndNotFragmented p
  if valid then do
    let totLen ← wordAt p.data 2
    let first ← byteAt p.data 0
    let hlen := first % 16 * 4
    let len := min totLen p.len
    let len := if len = 0 then p.len else len
    let protocol ← byteAt p.data 9
    pure (some ⟨hlen, if len > hlen then len - hlen else 0, protocol⟩)
  else pure none

/-- The IPv6 branch of `ndpi_detection_get_l4_internal`. -/
def ipv6L4 (p : Packet) : Access (Option L4) := do
  let plen ← wordAt p.data 4
  if p.len - 40 ≥ plen then do
    let nxt ← byteAt p.data 6
    let walked ← handleIpv6ExtensionHeaders p.data ⟨p.len - 40, 40, plen, nxt⟩
    pure (walked.map fun w => ⟨w.l4ptr, w.l4len, w.nxtHdr⟩)
  else pure none

/-- The bits `NDPI_DETECTION_ONLY_IPV4` and `NDPI_DETECTION_ONLY_IPV6`. -/
structure DetectionFlags where
  onlyIpv4 : Bool := false
  onlyIpv6 : Bool := false
  deriving DecidableEq, Repr

/-- `ndpi_detection_get_l4_internal` with a packet that is not NULL; `none` is a
return value other than 0. -/
def detectionGetL4Internal (p : Packet) (flags : DetectionFlags) : Access (Option L4) :=
  if p.len < 20 then pure none
  else do
    let first ← byteAt p.data 0
    if first / 16 = 4 ∧ first % 16 ≥ 5 then
      if flags.onlyIpv6 then pure none else ipv4L4 p
    else if first / 16 = 6 ∧ p.len ≥ 40 then
      if flags.onlyIpv4 then pure none else ipv6L4 p
    else pure none

end Ndpi.Source.Layer4
