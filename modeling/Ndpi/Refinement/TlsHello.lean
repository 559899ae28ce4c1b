import Ndpi.Refinement.TlsFields
import Ndpi.Source.Tls.Hello

/-!
# TLS hello messages as bytes

The head that both kinds of hello share, and the extensions block as a list of extensions;
what is found at the offset of an extension in a payload.
-/
namespace Ndpi.Refinement.TlsHello
open Lib Source Source.Tls Refinement.TlsFields List

section

structure Extension where
  id : UInt16
  body : Bytes
  small : body.length < 65536

def Extension.encode (e : Extension) : Bytes :=
  beBytes 2 e.id.toNat ++ (beBytes 2 e.body.length ++ e.body)

def encodeAll (extensions : List Extension) : Bytes := extensions.flatMap (·.encode)

@[simp] lemma encodeAll_nil : encodeAll [] = [] := rfl

@[simp] lemma encodeAll_cons (e : Extension) (es : List Extension) :
    encodeAll (e :: es) = e.encode ++ encodeAll es := flatMap_cons

@[simp] lemma encodeAll_append (es fs : List Extension) :
    encodeAll (es ++ fs) = encodeAll es ++ encodeAll fs := flatMap_append

@[simp] lemma Extension.encode_length (e : Extension) : e.encode.length = 4 + e.body.length := by
  rw [encode, length_append, length_append, beBytes_length, beBytes_length]
  omega

/-- An extension lies at this offset of the payload, with `rest` behind it. -/
structure At (p : Bytes) (offset : Nat) (e : Extension) (rest : Bytes) : Prop where
  id : be16At p offset = e.id.toNat
  len : be16At p (offset + 2) = e.body.length
  body : p.drop (offset + 4) = e.body ++ rest
  length : p.length = offset + (4 + e.body.length) + rest.length

variable {p rest : Bytes} {offset : Nat} {e : Extension}

lemma at_of_drop (here : p.drop offset = e.encode ++ rest) : At p offset e rest := by
  have bytes : p.drop offset = beBytes 2 e.id.toNat ++
      (beBytes 2 e.body.length ++ (e.body ++ rest)) := by
    rw [here, Extension.encode, append_assoc, append_assoc]
  have second := drop_add_of_drop bytes (beBytes_length 2 _)
  have third : p.drop (offset + 2 + 2) = e.body ++ rest :=
    drop_add_of_drop second (beBytes_length 2 _)
  refine ⟨be16At_field bytes e.id.toNat_lt, be16At_field second e.small, third, ?_⟩
  have nonempty : e.encode ++ rest ≠ [] := by
    apply ne_nil_of_length_pos
    rw [length_append, Extension.encode_length]
    omega
  rw [length_of_drop here nonempty, length_append, Extension.encode_length]
  omega

lemma At.next (here : At p offset e rest) : p.drop (offset + (4 + e.body.length)) = rest := by
  rw [← add_assoc]
  exact drop_add_of_drop here.body rfl

end

section

/-- A hello message up to its session id. `declared` is its length as the header has it,
`fragment` the rest of the header of a DTLS message. -/
structure HelloHead where
  declared : UInt16
  fragment : Bytes
  fragmentLength : fragment.length = 8
  version : UInt16
  random : Bytes
  randomLength : random.length = 32
  sessionId : Bytes
  sessionIdShort : sessionId.length < 256

/-- The bytes of the header behind the length. -/
def HelloHead.header (h : HelloHead) (dtls : Bool) : Bytes := if dtls then h.fragment else []

def HelloHead.encode (h : HelloHead) (type : UInt8) (dtls : Bool) : Bytes :=
  [type, 0] ++ (beBytes 2 h.declared.toNat ++ (h.header dtls ++ (beBytes 2 h.version.toNat ++
    (h.random ++ ([UInt8.ofNat h.sessionId.length] ++ h.sessionId)))))

/-- The offset of the session id's length. -/
def baseOffset (dtls : Bool) : Nat := if dtls then 46 else 38

variable {h : HelloHead} {type : UInt8} {dtls : Bool}

lemma HelloHead.header_length : (h.header dtls).length = if dtls then 8 else 0 := by
  unfold header
  split
  · exact h.fragmentLength
  · rfl

lemma HelloHead.encode_length :
    (h.encode type dtls).length = baseOffset dtls + (h.sessionId.length + 1) := by
  simp only [encode, length_append, length_cons, length_nil, beBytes_length,
    header_length, h.randomLength, baseOffset]
  cases dtls
  · simp only [Bool.false_eq_true, if_false]
    omega
  · simp only [if_true]
    omega

/-- The checks at the beginning of `processClientServerHello` let a hello message pass. -/
lemma helloStart_encode (fits : h.declared.toNat ≤ (h.encode type ctx.isDtls ++ rest).length) :
    helloStart ctx (h.encode type ctx.isDtls ++ rest) =
      some ⟨type, baseOffset ctx.isDtls, h.sessionId.length, h.version.toNat⟩ := by
  have whole : (h.encode type ctx.isDtls ++ rest).length =
      baseOffset ctx.isDtls + (h.sessionId.length + 1) + rest.length := by
    rw [length_append, HelloHead.encode_length]
  generalize same : h.encode type ctx.isDtls ++ rest = p at fits whole ⊢
  have atStart : p.drop 0 = [type, 0] ++ (beBytes 2 h.declared.toNat ++ (h.header ctx.isDtls ++
      (beBytes 2 h.version.toNat ++ (h.random ++ ([UInt8.ofNat h.sessionId.length] ++
      (h.sessionId ++ rest)))))) := by
    rw [drop_zero, ← same]
    simp [HelloHead.encode]
  have atLength := drop_add_of_drop atStart (n := 2) rfl
  have atHeader := drop_add_of_drop atLength (beBytes_length 2 _)
  have atVersion := drop_add_of_drop atHeader HelloHead.header_length
  have atRandom := drop_add_of_drop atVersion (beBytes_length 2 _)
  have atSession := drop_add_of_drop atRandom h.randomLength
  have kind : Tls.byteAt p 0 = type := byteAt_of_drop atStart 0
  have zero : Tls.byteAt p 1 = 0 := byteAt_of_drop atStart 1
  have declared : be24At p 1 = h.declared.toNat := by
    have low : be16At p 2 = h.declared.toNat := be16At_field atLength h.declared.toNat_lt
    rw [be24At, zero, low]
    exact Nat.zero_add _
  have version := be16At_field atVersion h.version.toNat_lt
  have session := byteAt_field atSession h.sessionIdShort
  have passes : ¬(wrap16 (be24At p 1) > p.length ∨ Tls.byteAt p 1 ≠ 0) := by
    rw [declared, wrap16_of_lt h.declared.toNat_lt, not_or]
    exact ⟨Nat.not_lt.mpr fits, not_not_intro zero⟩
  unfold helloStart
  unfold baseOffset at whole ⊢
  cases dtlsHello : ctx.isDtls
  · simp only [dtlsHello, Bool.false_eq_true, if_false] at version session whole ⊢
    rw [if_neg passes, if_neg (by omega), if_neg (by omega), kind, session, version]
  · simp only [dtlsHello, if_true] at version session whole ⊢
    rw [if_neg passes, if_neg (by omega), if_neg (by omega), kind, session, version]

end

/-- TLS over TCP. -/
def tcpContext : HelloContext := ⟨false, false, 0⟩

lemma empty_short : ([] : Bytes).length < 256 := Nat.zero_lt_succ 255

lemma empty_small : ([] : Bytes).length < 65536 := Nat.zero_lt_succ 65535

/-- The head of a TLS 1.2 hello without a session id. -/
def sampleHead (declared : UInt16) : HelloHead :=
  ⟨declared, List.replicate 8 0, List.length_replicate, 0x0303, List.replicate 32 7,
    List.length_replicate, [], empty_short⟩

end Ndpi.Refinement.TlsHello
