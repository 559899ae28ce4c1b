import Ndpi.Refinement.TlsHello
import Ndpi.Source.Tls.ClientHello
import Ndpi.Source.Tls.Sha256

/-!
# Client hello messages as bytes

What `processClientServerHello` makes of a client hello message: it reads the cipher suites
and goes through the extensions of the block one by one.
-/
namespace Ndpi.Refinement.TlsClientHello
open Lib Source Source.Tls Refinement.TlsFields Refinement.TlsHello List

/-- A client hello message with arbitrary bytes behind its extensions; only DTLS has the
cookie. -/
structure ClientHello where
  head : HelloHead
  cookie : Bytes
  cookieShort : cookie.length < 256
  ciphers : List UInt16
  compression : Bytes
  compressionShort : compression.length < 256
  extensions : List Extension
  trailing : Bytes

def encode16s (values : List UInt16) : Bytes := values.flatMap fun value => beBytes 2 value.toNat

def ClientHello.cookieBytes (m : ClientHello) (dtls : Bool) : Bytes :=
  if dtls then [UInt8.ofNat m.cookie.length] ++ m.cookie else []

def ClientHello.encode (m : ClientHello) (dtls : Bool) : Bytes :=
  m.head.encode 0x01 dtls ++ (m.cookieBytes dtls ++ (beBytes 2 (encode16s m.ciphers).length ++
    (encode16s m.ciphers ++ ([UInt8.ofNat m.compression.length] ++ (m.compression ++
      (beBytes 2 (encodeAll m.extensions).length ++ (encodeAll m.extensions ++ m.trailing)))))))

/-- The message is a payload: its lengths have 16 bits, and it is as long as it says. -/
structure ClientHello.Fits (m : ClientHello) (dtls : Bool) : Prop where
  declared : m.head.declared.toNat ≤ (m.encode dtls).length
  small : (m.encode dtls).length < 65536

@[simp] lemma encode16s_length (values : List UInt16) :
    (encode16s values).length = 2 * values.length := by
  induction values with
  | nil => rfl
  | cons value values ih =>
    rw [encode16s, flatMap_cons, length_append, beBytes_length, length_cons]
    change 2 + (encode16s values).length = _
    omega

variable {p rest : Bytes} {offset : Nat}

/-- A list of numbers is read back. -/
lemma readBe16s_encode (here : p.drop offset = encode16s values ++ rest) :
    readBe16s p offset (2 * values.length) = values.map (·.toNat) := by
  induction values generalizing offset with
  | nil =>
    rw [readBe16s, if_neg (by simp)]
    rfl
  | cons value values ih =>
    have bytes : p.drop offset = beBytes 2 value.toNat ++ (encode16s values ++ rest) := by
      rw [here, encode16s, flatMap_cons, append_assoc]
      rfl
    have length := length_of_drop bytes (by simp [beBytes])
    rw [length_append, beBytes_length] at length
    have first : be16At p offset = value.toNat := be16At_field bytes value.toNat_lt
    have count : 2 * (value :: values).length - 2 = 2 * values.length := by
      rw [length_cons]
      omega
    rw [readBe16s, if_pos ⟨by simp, by omega⟩, first, count,
      ih (drop_add_of_drop bytes (beBytes_length 2 _)), map_cons]

section

variable (env : HelloEnv)

/-- What is done with an extension at this offset. -/
def visit (p : Bytes) (offset : Nat) (e : Extension) (st : ClientInfo × HelloFlow) :
    ClientInfo × HelloFlow :=
  clientExtension env p (offset + 4) e.body.length e.id.toNat (noteExtension e.id.toNat st.1) st.2

/-- The extensions from this offset on. -/
def walk (p : Bytes) : Nat → List Extension → ClientInfo × HelloFlow → ClientInfo × HelloFlow
  | _, [], st => st
  | offset, e :: es, st => walk p (offset + (4 + e.body.length)) es (visit env p offset e st)

lemma walk_append (p : Bytes) (offset : Nat) (es fs : List Extension)
    (st : ClientInfo × HelloFlow) :
    walk env p offset (es ++ fs) st =
      walk env p (offset + (encodeAll es).length) fs (walk env p offset es st) := by
  induction es generalizing offset st with
  | nil => rfl
  | cons e es ih =>
    rw [cons_append, walk, walk, ih, encodeAll_cons, length_append,
      Extension.encode_length, add_assoc]

variable {env}

lemma clientTurn_decreases (s t : ClientWalk)
    (stays : clientTurn env p offset extensionsLen s = .stay t) :
    p.length - t.extensionOffset < p.length - s.extensionOffset := by
  unfold clientTurn at stays
  dsimp only at stays
  split at stays
  case isTrue => cases stays
  case isFalse inside =>
  split at stays
  case isTrue => cases stays
  obtain rfl := Turn.stay.inj stays
  dsimp only
  omega

variable {x extensionsLen : Nat}

lemma clientTurn_at (here : At p (offset + x) e rest) (more : x < extensionsLen) :
    clientTurn env p offset extensionsLen ⟨x, ja, flow⟩ =
      .stay ⟨x + (4 + e.body.length), (visit env p (offset + x) e (ja, flow)).1,
        (visit env p (offset + x) e (ja, flow)).2⟩ := by
  have length := here.length
  unfold clientTurn
  dsimp only
  rw [here.id, here.len, if_neg (not_not_intro ⟨more, by omega⟩), if_neg (by omega)]
  rfl

/-- The loop goes through the block. -/
lemma ends_walk (here : p.drop (offset + x) = encodeAll es ++ rest)
    (block : extensionsLen = x + (encodeAll es).length) :
    Ends (clientTurn env p offset extensionsLen) ⟨x, ja, flow⟩
      ⟨extensionsLen, (walk env p (offset + x) es (ja, flow)).1,
        (walk env p (offset + x) es (ja, flow)).2⟩ := by
  induction es generalizing x ja flow with
  | nil =>
    obtain rfl := block
    apply ends_of_leave
    rw [clientTurn, if_pos (by simp)]
    rfl
  | cons e es ih =>
    rw [encodeAll_cons, append_assoc] at here
    rw [encodeAll_cons, length_append, Extension.encode_length] at block
    have found := at_of_drop here
    apply (ends_iff_of_stay (clientTurn_at found (by omega)) _).mpr
    have next := found.next
    rw [add_assoc] at next
    rw [walk, add_assoc]
    exact ih next (by omega)

end

/-- What is known when the cipher suites have been read. -/
def ClientHello.info (m : ClientHello) : ClientInfo :=
  let ciphers := (m.ciphers.map (·.toNat)).filter fun cipher => !isGrease cipher
  { ClientInfo.empty m.head.version.toNat with
    cipher := ciphers.foldl pushJa []
    invalidJa := overflows [] ciphers }

/-- The offset of the first extension. -/
def ClientHello.extensionsOffset (m : ClientHello) (dtls : Bool) : Nat :=
  (m.head.encode 0x01 dtls).length + (m.cookieBytes dtls).length + 2 + 2 * m.ciphers.length + 1 +
    m.compression.length + 2

/-- The extensions are at their offset. -/
lemma ClientHello.drop_extensionsOffset (m : ClientHello) (dtls : Bool) :
    (m.encode dtls).drop (m.extensionsOffset dtls) = encodeAll m.extensions ++ m.trailing := by
  have atCookie : (m.encode dtls).drop (m.head.encode 0x01 dtls).length = _ := drop_left' rfl
  have atCipherLen := drop_add_of_drop atCookie rfl
  have atCiphers := drop_add_of_drop atCipherLen (beBytes_length 2 _)
  have atCompressionLen := drop_add_of_drop atCiphers (encode16s_length _)
  have atCompression := drop_add_of_drop atCompressionLen length_singleton
  have atLength := drop_add_of_drop atCompression rfl
  exact drop_add_of_drop atLength (beBytes_length 2 _)

/-- What is known when the extensions have been read. -/
def ClientHello.walked (env : HelloEnv) (m : ClientHello) (dtls : Bool) (flow : HelloFlow) :
    ClientInfo × HelloFlow :=
  walk env (m.encode dtls) (m.extensionsOffset dtls) m.extensions (m.info, flow)

variable {m : ClientHello} {ctx : HelloContext}

/-- The cookie with the byte of its length. -/
lemma clientCookieLen_encode (start : HelloStart)
    (here : p.drop (start.baseOffset + start.sessionIdLen + 1) = m.cookieBytes ctx.isDtls ++ rest)
    (room : start.baseOffset + start.sessionIdLen + 1 + (m.cookieBytes ctx.isDtls).length + 2 ≤
      p.length) :
    clientCookieLen ctx p start = some (m.cookieBytes ctx.isDtls).length := by
  unfold clientCookieLen
  unfold ClientHello.cookieBytes at here room ⊢
  cases dtls : ctx.isDtls with
  | false => rfl
  | true =>
    simp only [dtls, if_true, length_append, length_singleton] at here room ⊢
    rw [byteAt_field here m.cookieShort, if_neg (by omega), add_comm]

lemma clientCiphers_encode (here : p.drop offset = encode16s m.ciphers ++ rest)
    (nonempty : rest ≠ []) (length : p.length = offset + 2 * m.ciphers.length + rest.length) :
    clientCiphers p offset (2 * m.ciphers.length) (.empty m.head.version.toNat) = m.info := by
  have positive := length_pos_iff.mpr nonempty
  rw [clientCiphers, if_pos (by omega), readBe16s_encode here]
  rfl

/-- The result after these extensions. -/
def finish (env : HelloEnv) (ctx : HelloContext) (st : ClientInfo × HelloFlow) : HelloResult :=
  if st.1.invalidJa then ⟨2, st.2, none⟩ else .computed env ctx st.2 st.1

/-- The part behind the cipher suites. -/
lemma clientRest_encode (small : p.length < 65536)
    (here : p.drop offset = [UInt8.ofNat m.compression.length] ++ (m.compression ++
      (beBytes 2 (encodeAll m.extensions).length ++ (encodeAll m.extensions ++ m.trailing)))) :
    clientRest env ctx flow p offset ja =
      finish env ctx (walk env p (offset + 1 + m.compression.length + 2) m.extensions
        (ja, flow)) := by
  have length := length_of_drop here (by simp)
  simp only [length_append, beBytes_length, length_singleton] at length
  have atCompression := drop_add_of_drop here length_singleton
  have atLength := drop_add_of_drop atCompression rfl
  have atBlock := drop_add_of_drop atLength (beBytes_length 2 _)
  have compressionLen := byteAt_field here m.compressionShort
  have unwrapped : wrap16 (offset + 1 + m.compression.length) =
      offset + 1 + m.compression.length := wrap16_of_lt (by omega)
  have extensionsLen : be16At p (offset + 1 + m.compression.length) =
      (encodeAll m.extensions).length := be16At_field atLength (by omega)
  have ended : Ends (clientTurn env p (offset + 1 + m.compression.length + 2)
      (encodeAll m.extensions).length) ⟨0, ja, flow⟩ _ :=
    ends_walk atBlock (Nat.zero_add _).symm
  have ran := loop_of_ends (fun s => p.length - s.extensionOffset) clientTurn_decreases
    (Nat.lt_succ_of_le (Nat.sub_le _ _)) ended
  unfold clientRest
  rw [if_pos (by omega), compressionLen, unwrapped, if_pos (by omega), extensionsLen,
    if_pos (by omega), ran]
  rfl

/-- A client hello message is accepted, and its fingerprint is that of what was read. -/
lemma processClientHello_encode (fits : m.Fits ctx.isDtls) :
    processClientHello env ctx flow (m.encode ctx.isDtls) =
      finish env ctx (m.walked env ctx.isDtls flow) := by
  have start : helloStart ctx (m.encode ctx.isDtls) = _ := helloStart_encode fits.declared
  have headLength : (m.head.encode 0x01 ctx.isDtls).length = _ := HelloHead.encode_length
  have small := fits.small
  have atCookie : (m.encode ctx.isDtls).drop
      (baseOffset ctx.isDtls + m.head.sessionId.length + 1) = _ :=
    drop_left' headLength
  have length := length_of_drop atCookie (by simp)
  simp only [length_append, beBytes_length, encode16s_length, length_singleton] at length
  unfold ClientHello.walked ClientHello.extensionsOffset
  rw [headLength, ← add_assoc]
  generalize m.encode ctx.isDtls = p at start small atCookie length ⊢
  generalize baseOffset ctx.isDtls = base at start atCookie length ⊢
  have atCipherLen := drop_add_of_drop atCookie rfl
  have atCiphers := drop_add_of_drop atCipherLen (beBytes_length 2 _)
  have atRest := drop_add_of_drop atCiphers (encode16s_length _)
  have cookie := clientCookieLen_encode
    ⟨0x01, base, m.head.sessionId.length, m.head.version.toNat⟩ atCookie (by dsimp only; omega)
  generalize (m.cookieBytes ctx.isDtls).length = cookieLen
    at cookie length atCipherLen atCiphers atRest ⊢
  have cipherLen : be16At p (base + m.head.sessionId.length + 1 + cookieLen) =
      2 * m.ciphers.length := by
    rw [encode16s_length] at atCipherLen
    exact be16At_field atCipherLen (by omega)
  have order : base + m.head.sessionId.length + cookieLen + 1 =
      base + m.head.sessionId.length + 1 + cookieLen := by omega
  unfold processClientHello
  rw [start]
  dsimp only
  rw [if_neg (not_not_intro rfl), if_neg (by omega), cookie]
  dsimp only
  rw [order, cipherLen, wrap16_of_lt (by omega), clientRest_encode small atRest,
    clientCiphers_encode atCiphers (by simp) (by
      simp only [length_append, beBytes_length, length_singleton]
      omega)]

/-- A message without compression methods and with nothing behind its extensions. -/
def sampleHello (declared : UInt16) (ciphers : List UInt16) (extensions : List Extension) :
    ClientHello :=
  ⟨sampleHead declared, [], empty_short, ciphers, [], empty_short, extensions, []⟩

/-- Fingerprints are computed with SHA-256. -/
def sampleEnv : HelloEnv :=
  ⟨⟨false, false⟩, true, true, false, id, fun _ => false, fun _ => false, Sha256.ndpiSha256⟩

def sampleFlow : HelloFlow := ⟨false, [], false, false, none⟩

end Ndpi.Refinement.TlsClientHello
