import Ndpi.Source.Cache.Hostname

/-!
# What the cache of host names tells apart

A name without a port is hashed with its address. A name with a port is hashed as if it
were empty, so with a port all names of one address are the same.
-/
namespace Ndpi.Guarantees.HostnameCache
open Lib CString Source Cache

/-- A host name without a port that leaves room for the address. -/
structure Hostname (name : Bytes) : Prop where
  noColon : 0x3A ∉ name
  text : 0 ∉ name
  short : name.length < 100

/-- The name with the port behind it, if there is one. -/
def withPort (name : Bytes) (port : Option Bytes) : Bytes := name ++ port.elim [] (0x3A :: ·)

section

variable (m : Domains.Module) (stack : Vector UInt8 128) (ipAddr : IpAddr) {name : Bytes}
  (host : Hostname name)
include host

lemma findIdx?_colon (rest : Bytes) :
    (name ++ rest).findIdx? (· = 0x3A) = (rest.findIdx? (· = 0x3A)).map (· + name.length) := by
  have none : name.findIdx? (· = 0x3A) = none := by
    simp only [List.findIdx?_eq_none_iff, decide_eq_false_iff_not]
    rintro b member rfl
    exact host.noColon member
  rw [List.findIdx?_append, none, Option.none_or]

lemma cutAtColon_colon :
    cutAtColon (name ++ 0x3A :: rest) len = (name ++ 0 :: rest, 0) := by
  have text : cString (name ++ 0x3A :: rest) = name ++ 0x3A :: cString rest := by
    refine (List.takeWhile_append_of_pos fun b member => ?_).trans rfl
    exact decide_eq_true fun zero => host.text (zero ▸ member)
  have place : (name ++ 0x3A :: cString rest).findIdx? (· = 0x3A) = some name.length := by
    simp [findIdx?_colon host, List.findIdx?_cons]
  rw [cutAtColon, text, place]
  simp [cString]

lemma hostnameIpBytes_plain :
    hostnameIpBytes m stack ipAddr name false = name ++ ipAddr.toList := by
  have short := host.short
  have whole : name.take 127 = name := List.take_of_length_le (by omega)
  have none : name.findIdx? (· = 0x3A) = none := by simpa using findIdx?_colon host []
  have room : min (128 - name.length) 16 = 16 := by omega
  have long : name.take (name.length + 16) = name := List.take_of_length_le (by omega)
  have address : ipAddr.toList.take 16 = ipAddr.toList := List.take_of_length_le (by simp)
  simp only [hostnameIpBytes, cutAtColon, Bool.false_eq_true, if_false, whole, List.append_assoc,
    List.singleton_append, cString_append host.text, none, room]
  rw [if_pos (by omega), List.take_left]
  simp [List.take_append, long, address]

lemma hostnameIpBytes_port :
    hostnameIpBytes m stack ipAddr (name ++ 0x3A :: port) false = ipAddr.toList := by
  have short := host.short
  have cut : (name ++ 0x3A :: port).take 127 = name ++ 0x3A :: port.take (126 - name.length) := by
    rw [List.take_append, List.take_of_length_le (by omega),
      show 127 - name.length = 126 - name.length + 1 by omega, List.take_succ_cons]
  have address : ipAddr.toList.take 16 = ipAddr.toList := List.take_of_length_le (by simp)
  simp only [hostnameIpBytes, Bool.false_eq_true, if_false, cut, List.append_assoc,
    List.cons_append, cutAtColon_colon host]
  simp [List.take_append, address]

end

/-- Names with or without ports are told apart as names exactly if they are empty; names
without ports always are. -/
theorem hostname_bytes_iff (m : Domains.Module) (stack stack' : Vector UInt8 128)
    (ipAddr : IpAddr) (name other : Bytes) (host : Hostname name) (host' : Hostname other) :
    ((∀ port port', hostnameIpBytes m stack ipAddr (withPort name port) false =
        hostnameIpBytes m stack' ipAddr (withPort other port') false ↔ name = other) ↔
      name = [] ∧ other = []) ∧
    (hostnameIpBytes m stack ipAddr name false = hostnameIpBytes m stack' ipAddr other false ↔
      name = other) := by
  have bytes {name : Bytes} (host : Hostname name) (stack) (port : Option Bytes) :
      hostnameIpBytes m stack ipAddr (withPort name port) false =
        (if port.isNone then name else []) ++ ipAddr.toList := by
    cases port with
    | none => simpa [withPort] using hostnameIpBytes_plain m stack ipAddr host
    | some port => exact hostnameIpBytes_port m stack ipAddr host
  simp only [bytes host, bytes host', List.append_cancel_right_eq, hostnameIpBytes_plain _ _ _ host,
    hostnameIpBytes_plain _ _ _ host', and_true]
  constructor
  · intro same
    have equal := (same (some []) (some [])).mp rfl
    have empty : name = [] := (same none (some [])).mpr equal
    exact ⟨empty, equal ▸ empty⟩
  · rintro ⟨rfl, rfl⟩ port port'
    simp

theorem hostname_bytes_apart :
    hostnameIpBytes ⟨none⟩ (Vector.replicate 128 0) (Vector.replicate 16 0) [0x61] false ≠
      hostnameIpBytes ⟨none⟩ (Vector.replicate 128 1) (Vector.replicate 16 0) [0x62] false :=
  (hostname_bytes_iff _ _ _ _ _ _ ⟨by decide, by decide, by decide⟩
    ⟨by decide, by decide, by decide⟩).2.not.mpr (by decide)

/-- With the port 80, the names `a` and `b` are the same, and `a` is not itself. -/
theorem hostname_bytes_port_same :
    let bytes (name : Bytes) := hostnameIpBytes ⟨none⟩ (Vector.replicate 128 0)
      (Vector.replicate 16 0) name false
    bytes [0x61, 0x3A, 0x38, 0x30] = bytes [0x62, 0x3A, 0x38, 0x30] ∧
      bytes [0x61, 0x3A, 0x38, 0x30] ≠ bytes [0x61] := by
  decide +kernel

end Ndpi.Guarantees.HostnameCache
