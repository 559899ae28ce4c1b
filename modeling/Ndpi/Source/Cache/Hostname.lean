import Ndpi.Lib.CString
import Ndpi.Source.Cache.Address
import Ndpi.Source.Domains

/-!
# The cache of resolved host names

`ndpi_cache.c:540-573`: a host name and one of its addresses are cached as the hash of a
buffer on the stack, which holds the name and behind it the address.
-/
namespace Ndpi.Source.Cache
open Lib CString

/-- The buffer without the port, and the new `len`: the length of what is left behind the
name, where the colon was. -/
def cutAtColon (buf : Bytes) (len : Nat) : Bytes × Nat :=
  match (cString buf).findIdx? (· = 0x3A) with
  | none => (buf, len)
  | some doubleColumn =>
    let buf := buf.set doubleColumn 0
    (buf, (cString (buf.drop doubleColumn)).length)

/-- The bytes that `ndpi_cache_hash_hostname_ip` hashes; `stack` is what `buf` holds before. -/
def hostnameIpBytes (m : Domains.Module) (stack : Vector UInt8 128) (ipAddr : IpAddr)
    (hostname : Bytes) (useDomainName : Bool) : Bytes :=
  let hostname := if useDomainName then Domains.getHostDomain m hostname else hostname
  let printed := hostname.take 127 ++ [0]
  let (buf, len) := cutAtColon (printed ++ stack.toList.drop printed.length) hostname.length
  if len < 128 then
    let toAdd := min (128 - len) 16
    (buf.take len ++ ipAddr.toList.take toAdd ++ buf.drop (len + toAdd)).take (len + toAdd)
  else buf

/-- `ndpi_cache_hash_hostname_ip`. -/
def cacheHashHostnameIp (m : Domains.Module) (stack : Vector UInt8 128) (ipAddr : IpAddr)
    (hostname : Bytes) (useDomainName : Bool) : UInt32 :=
  quickHash (hostnameIpBytes m stack ipAddr hostname useDomainName)

end Ndpi.Source.Cache
