import Ndpi.Lib.Words

/-!
# Addresses as text

`ndpi_main.c:11422-11458`: the family of an `ndpi_ip_addr_t` is not stored with it but told
from the words behind the first.
-/
namespace Ndpi.Source.IpString
open Lib

/-- `ndpi_ip_addr_t`: the four bytes that `ipv4` shares with the first word of `ipv6`, and
the other words. -/
structure IpAddr where
  ipv4 : Vector UInt8 4
  word1 : UInt32
  word2 : UInt32
  word3 : UInt32
  deriving DecidableEq

/-- `inet_pton` for each family and `inet_ntop` for IPv6. -/
structure Inet where
  pton4 : Bytes → Option (Vector UInt8 4)
  pton6 : Bytes → Option IpAddr
  ntop6 : IpAddr → Bytes

/-- `ndpi_is_ipv6`. -/
def isIpv6 (ip : IpAddr) : Bool := ip.word1 != 0 || ip.word2 != 0 || ip.word3 != 0

/-- `"%u.%u.%u.%u"`. -/
def dotted (a : Vector UInt8 4) : Bytes :=
  [0x2E].intercalate (a.toList.map fun b => decimal b.toNat)

/-- `ndpi_get_ip_string`; `inet_ntop` gives up on a buffer that is too short, `snprintf`
cuts the text. -/
def getIpString (inet : Inet) (ip : IpAddr) (bufLen : Nat) : Bytes :=
  if isIpv6 ip then if (inet.ntop6 ip).length < bufLen then inet.ntop6 ip else []
  else (dotted ip.ipv4).take (bufLen - 1)

/-- `ndpi_parse_ip_string`: the version or -1, and `parsed_ip`. -/
def parseIpString (inet : Inet) (ipStr : Bytes) : Int × IpAddr :=
  let zero : IpAddr := ⟨.replicate 4 0, 0, 0, 0⟩
  if ipStr.contains 0x2E then
    match inet.pton4 ipStr with
    | some ipv4 => (4, { zero with ipv4 })
    | none => (-1, zero)
  else
    match inet.pton6 ipStr with
    | some ipv6 => (6, ipv6)
    | none => (-1, zero)

end Ndpi.Source.IpString
