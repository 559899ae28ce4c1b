import Ndpi.Lib.Words

/-!
# String hashes and the suffixes of host names

`ndpi_utils.c:3142-3234,4301-4324` and `ndpi_domains.c:94-186`. The hash table under
`ndpi_str_hash` is a map, and its allocations succeed. Texts are the bytes before the
terminating zero.
-/
namespace Ndpi.Source.Domains
open Lib

/-- `ndpi_str_hash`. -/
def StrHash := Bytes → Option Nat

def StrHash.empty : StrHash := fun _ => none

/-- `ndpi_hash_find_entry`. -/
def StrHash.findEntry (h : StrHash) (key : Bytes) : Option Nat := if key = [] then none else h key

/-- `ndpi_hash_add_entry` without extra data; the length of the key is an unsigned 8-bit
number. -/
def StrHash.addEntry (h : StrHash) (key : Bytes) (value : Nat) : StrHash :=
  let key := key.take (key.length % 256)
  if key = [] then h else fun other => if other = key then some value else h other

/-- The field of `ndpi_detection_module_struct` that the functions on host names read. -/
structure Module where
  publicDomainSuffixes : Option StrHash

/-- The dot. -/
def dot : UInt8 := 0x2E

/-- The place of the last dot before a place. -/
def lastDotBefore (hostname : Bytes) : Nat → Option Nat
  | 0 => none
  | place + 1 => if hostname[place]? = some dot then some place else lastDotBefore hostname place

/-- The loop of `ndpi_get_host_domain_suffix`, where `prev` is the place of `prev_dot`. -/
def suffixLoop (suffixes : StrHash) (hostname : Bytes) : Nat → Nat → Nat → Nat × Nat
  | 0, prev, domainId => (prev + 1, domainId)
  | place + 1, prev, domainId =>
    if hostname[place + 1]? = some dot then
      match suffixes.findEntry (hostname.drop (place + 2)) with
      | none => (prev + 1, domainId)
      | some domainId => suffixLoop suffixes hostname place (place + 1) domainId
    else suffixLoop suffixes hostname place prev domainId

/-- `ndpi_get_host_domain_suffix`: where the suffix begins in the host name, and its id. -/
def getHostDomainSuffix (m : Module) (hostname : Bytes) : Nat × Nat :=
  match m.publicDomainSuffixes with
  | none => (0, 0)
  | some suffixes =>
    match lastDotBefore hostname hostname.length with
    | none => (0, 0)
    | some place => suffixLoop suffixes hostname place place 0

/-- `ndpi_strrstr`, as a place. -/
def strrstr (haystack needle : Bytes) : Option Nat :=
  if needle = [] then some haystack.length
  else ((List.range haystack.length).filter fun place => needle <+: haystack.drop place).getLast?

/-- `ndpi_get_host_domain`. The test for a numeric IPv6 address compares the first colon
with itself, so it never holds. -/
def getHostDomain (m : Module) (hostname : Bytes) : Bytes :=
  let last := hostname.getLast?
  if m.publicDomainSuffixes.isNone then hostname
  else if last.any isDigit ∨ last = some 0x5D then hostname
  else
    let start := (getHostDomainSuffix m hostname).1
    let suffix := hostname.drop start
    if start = 0 then hostname
    -- "in-addr.arpa"
    else if suffix = [0x69, 0x6E, 0x2D, 0x61, 0x64, 0x64, 0x72, 0x2E, 0x61, 0x72, 0x70, 0x61] then
      suffix
    else
      match strrstr hostname suffix with
      | none => hostname
      | some place =>
        if place = 0 then hostname
        else
          match lastDotBefore hostname (place - 1) with
          | none => hostname
          | some before => hostname.drop (before + 1)

end Ndpi.Source.Domains
