import Ndpi.Source.Domains
import Ndpi.Source.Shoco.Codec

/-!
# Classes of domains

`ndpi_domain_classify.c:74-104,149-228` and `ndpi_utils.c:4383-4487`: domains are stored
under an encoded key when there is a module, and as they are when there is none.
-/
namespace Ndpi.Source.DomainClassify
open Lib Source.Domains

/-- `ndpi_domain_mapper`; `none` stands for `IGNORE_CHAR`. -/
def domainMapper (b : UInt8) : Option Nat :=
  if 0x61 ≤ b ∧ b ≤ 0x7A then some (b.toNat - 0x61 + 1)
  else if 0x30 ≤ b ∧ b ≤ 0x39 then some (b.toNat - 0x30 + 27)
  else if b = 0x2D then some 37
  else if b = 0x5F then some 38
  else if b = 0x2E then some 39
  else none

/-- The loop of `ndpi_encode_domain` that puts four characters into three bytes. -/
def packNibbles : Nat → Nat → Bytes → Bytes
  | bufShift, value, [] =>
    (List.range (bufShift / 6)).map fun place => UInt8.ofNat (value >>> (place * 8))
  | bufShift, value, b :: bytes =>
    match domainMapper b with
    | none => packNibbles bufShift value bytes
    | some mappedIdx =>
      let value := value ||| mappedIdx <<< bufShift
      if bufShift + 6 = 24 then
        UInt8.ofNat value :: UInt8.ofNat (value >>> 8) :: UInt8.ofNat (value >>> 16) ::
          packNibbles 0 0 bytes
      else packNibbles (bufShift + 6) value bytes

/-- `ndpi_encode_domain` into a buffer of 256 bytes. -/
def encodeDomain (m : Module) (domain : Bytes) : Bytes :=
  let domainLen := domain.length
  if 253 ≤ domainLen then []
  else if domainLen ≤ 4 then domain
  else
    let (start, domainId) := getHostDomainSuffix m domain
    let suffixLen := domainLen - start
    let domainBuf :=
      if suffixLen < domainLen then domain.take (domainLen - suffixLen - 1) else domain
    let packed := if suffixLen < domainLen then packNibbles 0 0 domainBuf else []
    let compressed := Shoco.compressStr domainBuf 128
    let trailer := [UInt8.ofNat (domainId >>> 8), UInt8.ofNat domainId]
    if compressed ≠ [] ∧ (packed = [] ∨ compressed.length < packed.length) then
      if domainLen ≤ compressed.length then domain else compressed ++ trailer
    else packed ++ trailer

/-- The key of a domain. -/
def keyOf (ndpiMod : Option Module) (domain : Bytes) : Bytes :=
  match ndpiMod with
  | some m => encodeDomain m domain
  | none => domain

/-- `ndpi_domain_classify_add`. -/
def domainClassifyAdd (ndpiMod : Option Module) (domains : StrHash) (classId : Nat)
    (domain : Bytes) : StrHash :=
  domains.addEntry (keyOf ndpiMod (domain.dropWhile (· = dot))) classId

/-- The text from the last dot on. -/
def strrchrDot (hostname : Bytes) : Option Bytes :=
  (lastDotBefore hostname hostname.length).map hostname.drop

/-- The loop of `ndpi_domain_classify_hostname` from the search for the next dot on; it is
left where no dot follows. -/
def classifyLoop (find : Bytes → Option Nat) : Bytes → Option Nat
  | [] => none
  | c :: item =>
    if c = dot then
      if dot ∈ item then
        match find item with
        | some classId => some classId
        | none => classifyLoop find item
      else none
    else classifyLoop find item

/-- The last resort of `ndpi_domain_classify_hostname`: the domain name up to its first
dot, if that is within the buffer. -/
def classifyWildcard (m : Module) (domains : StrHash) (hostname : Bytes) : Option Nat :=
  let buf := (getHostDomain m hostname).take 255
  if dot ∈ buf then domains.findEntry (encodeDomain m (buf.takeWhile (· ≠ dot) ++ [dot])) else none

/-- `ndpi_domain_classify_hostname`: the class, if it returns true. -/
def domainClassifyHostname (ndpiMod : Option Module) (domains : StrHash) (hostname : Bytes) :
    Option Nat :=
  let find (item : Bytes) : Option Nat := domains.findEntry (keyOf ndpiMod item)
  match strrchrDot hostname with
  | none => none
  | some last =>
    -- ".arpa" and ".local"
    if last = [0x2E, 0x61, 0x72, 0x70, 0x61] ∨ last = [0x2E, 0x6C, 0x6F, 0x63, 0x61, 0x6C] then none
    else
      match find hostname with
      | some classId => some classId
      | none =>
        match classifyLoop find hostname with
        | some classId => some classId
        | none => ndpiMod.bind fun m => classifyWildcard m domains hostname

end Ndpi.Source.DomainClassify
