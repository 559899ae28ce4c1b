import Ndpi.Source.IpString

/-!
# The text of a parsed address

An address prints in the family it was parsed in, except for an IPv6 address whose words
behind the first are zero, such as a network prefix: that one prints as an IPv4 address.
-/
namespace Ndpi.Guarantees.IpString
open Lib Source.IpString

/-- The text stands for the address in this family. -/
def Denotes (inet : Inet) (version : Int) (text : Bytes) (ip : IpAddr) : Prop :=
  if version = 4 then inet.pton4 text = some ip.ipv4 else inet.pton6 text = some ip

/-- `inet_pton` reads what is printed for the address, and no dotted text as IPv6. -/
structure Inverse (inet : Inet) (ip : IpAddr) : Prop where
  ipv4 : inet.pton4 (dotted ip.ipv4) = some ip.ipv4
  ipv6 : inet.pton6 (inet.ntop6 ip) = some ip
  apart : inet.pton6 (dotted ip.ipv4) = none

/-- Neither text of the address is too long for the buffer. -/
def Roomy (inet : Inet) (ip : IpAddr) (bufLen : Nat) : Prop :=
  (dotted ip.ipv4).length < bufLen ∧ (inet.ntop6 ip).length < bufLen

variable {inet : Inet} {ipStr : Bytes} {version : Int} {ip : IpAddr} {bufLen : Nat}

lemma getIpString_narrow (room : Roomy inet ip bufLen) (narrow : isIpv6 ip = false) :
    getIpString inet ip bufLen = dotted ip.ipv4 := by
  rw [getIpString, if_neg (by rw [narrow]; decide)]
  exact List.take_of_length_le (Nat.le_sub_one_of_lt room.1)

/-- An IPv4 address leaves the other words at zero. -/
lemma parseIpString_family (parsed : parseIpString inet ipStr = (version, ip))
    (accepted : version ≠ -1) : version = 4 ∧ isIpv6 ip = false ∨ version = 6 := by
  unfold parseIpString at parsed
  split at parsed
  · split at parsed <;> cases parsed
    · exact .inl ⟨rfl, rfl⟩
    · exact absurd rfl accepted
  · split at parsed <;> cases parsed
    · exact .inr rfl
    · exact absurd rfl accepted

/-- The text printed for a parsed address stands for it in its family exactly if that is IPv4
or the address has a word behind the first that is not zero. -/
theorem parsed_ip_prints_back_iff (parsed : parseIpString inet ipStr = (version, ip))
    (accepted : version ≠ -1) (inverse : Inverse inet ip) (room : Roomy inet ip bufLen) :
    Denotes inet version (getIpString inet ip bufLen) ip ↔ version = 4 ∨ isIpv6 ip = true := by
  rcases parseIpString_family parsed accepted with ⟨rfl, narrow⟩ | rfl
  · rw [getIpString_narrow room narrow]
    exact iff_of_true inverse.ipv4 (.inl rfl)
  · rw [Denotes, if_neg (by decide), or_iff_right (by decide)]
    cases family : isIpv6 ip with
    | true =>
      rw [getIpString, if_pos family, if_pos room.2]
      exact iff_of_true inverse.ipv6 rfl
    | false =>
      rw [getIpString_narrow room family, inverse.apart]
      exact iff_of_false nofun nofun

/-- `2001:db8::`. -/
def prefixText : Bytes := [0x32, 0x30, 0x30, 0x31, 0x3A, 0x64, 0x62, 0x38, 0x3A, 0x3A]

def prefixAddr : IpAddr := ⟨#v[0x20, 0x01, 0x0D, 0xB8], 0, 0, 0⟩

/-- The two functions at this prefix and at its four bytes in dotted form. -/
def prefixInet : Inet where
  pton4 := fun text => if text = dotted prefixAddr.ipv4 then some prefixAddr.ipv4 else none
  pton6 := fun text => if text = prefixText then some prefixAddr else none
  ntop6 := fun _ => prefixText

lemma prefixInet_inverse : Inverse prefixInet prefixAddr := ⟨rfl, rfl, by decide +kernel⟩

theorem dotted_prints_back :
    Denotes prefixInet 4 (getIpString prefixInet prefixAddr 46) prefixAddr := by
  have parsed : parseIpString prefixInet (dotted prefixAddr.ipv4) = (4, prefixAddr) := by
    decide +kernel
  exact (parsed_ip_prints_back_iff parsed (by decide) prefixInet_inverse
    (by unfold Roomy; decide +kernel)).mpr (.inl rfl)

/-- The prefix prints as `32.1.13.184`. -/
theorem prefix_prints_as_ipv4 :
    parseIpString prefixInet prefixText = (6, prefixAddr) ∧
      getIpString prefixInet prefixAddr 46 = dotted prefixAddr.ipv4 ∧
      ¬Denotes prefixInet 6 (dotted prefixAddr.ipv4) prefixAddr := by
  unfold Denotes
  decide +kernel

end Ndpi.Guarantees.IpString
