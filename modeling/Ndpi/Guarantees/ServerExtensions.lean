import Ndpi.Refinement.TlsHello

/-!
# The extensions of a server hello

The loop over the extensions counts the bytes of the block in `i`. An ec_point_formats
extension starts this counter anew, so that the loop then ends before or behind the end of
the block, and an ALPN list that does not end in the payload ends the whole function. The
ids are those of the block exactly if the counter stays below its length up to the last
extension and, unless nothing is there to be read, reaches it behind the last.
-/
namespace Ndpi.Guarantees.ServerExtensions
open Lib Source.Tls Refinement.TlsFields Refinement.TlsHello List

/-- A server hello message with arbitrary bytes behind its extensions. -/
structure ServerHello where
  head : HelloHead
  cipher : UInt16
  compression : UInt8
  extensions : List Extension
  trailing : Bytes

def ServerHello.encode (m : ServerHello) (dtls : Bool) : Bytes :=
  m.head.encode 0x02 dtls ++ (beBytes 2 m.cipher.toNat ++ ([m.compression] ++
    (beBytes 2 (encodeAll m.extensions).length ++ (encodeAll m.extensions ++ m.trailing))))

/-- The message is a payload: its lengths have 16 bits, and it is as long as it says. -/
structure ServerHello.Fits (m : ServerHello) (dtls : Bool) : Prop where
  declared : m.head.declared.toNat ≤ (m.encode dtls).length
  small : (m.encode dtls).length < 65536

section

/-- There is a whole extension at the start. -/
def Complete (left : Bytes) : Prop := 4 ≤ left.length ∧ 4 + be16At left 2 ≤ left.length

instance (left : Bytes) : Decidable (Complete left) := inferInstanceAs (Decidable (_ ∧ _))

lemma firstBody_small (left : Bytes) : ((left.drop 4).take (be16At left 2)).length < 65536 := by
  have small := be16At_lt left 2
  rw [length_take]
  omega

/-- The extension at the start. -/
def firstExtension (left : Bytes) : Extension :=
  ⟨UInt16.ofNat (be16At left 0), (left.drop 4).take (be16At left 2), firstBody_small left⟩

variable {left : Bytes}

lemma firstExtension_shorter (complete : Complete left) :
    (left.drop (4 + be16At left 2)).length < left.length := by
  have long := complete.1
  rw [length_drop]
  omega

/-- What the bytes are if they are read as extensions. -/
def completeExtensions (left : Bytes) : List Extension :=
  if complete : Complete left then
    firstExtension left :: completeExtensions (left.drop (4 + be16At left 2))
  else []
termination_by left.length
decreasing_by exact firstExtension_shorter complete

/-- The bytes behind these extensions. -/
def leftover (left : Bytes) : Bytes :=
  if complete : Complete left then leftover (left.drop (4 + be16At left 2)) else left
termination_by left.length
decreasing_by exact firstExtension_shorter complete

lemma beBytes_be16At (inside : i + 2 ≤ left.length) :
    beBytes 2 (be16At left i) = (left.drop i).take 2 := by
  have high : byteAt left i = left[i] := by rw [byteAt, getElem?_eq_getElem]; rfl
  have low : byteAt left (i + 1) = left[i + 1] := by rw [byteAt, getElem?_eq_getElem]; rfl
  rw [be16At, high, low, beBytes_two, drop_eq_getElem_cons (by omega),
    drop_eq_getElem_cons (by omega : i + 1 < left.length)]
  rfl

lemma firstExtension_encode (complete : Complete left) :
    (firstExtension left).encode ++ left.drop (4 + be16At left 2) = left := by
  obtain ⟨header, body⟩ := complete
  have id : (UInt16.ofNat (be16At left 0)).toNat = be16At left 0 :=
    (UInt16.toNat_ofNat' ..).trans (Nat.mod_eq_of_lt (be16At_lt left 0))
  have length : ((left.drop 4).take (be16At left 2)).length = be16At left 2 := by
    rw [length_take, length_drop]
    omega
  have third : (left.drop 4).take (be16At left 2) ++ left.drop (4 + be16At left 2) =
      left.drop 4 := by rw [← drop_drop, take_append_drop]
  have second : (left.drop 2).take 2 ++ left.drop 4 = left.drop 2 := by
    rw [← drop_drop (i := 2) (j := 2), take_append_drop]
  rw [Extension.encode, firstExtension, id, length, append_assoc, append_assoc,
    beBytes_be16At (by omega), beBytes_be16At (by omega), third, second, drop_zero,
    take_append_drop]

lemma completeExtensions_leftover :
    encodeAll (completeExtensions left) ++ leftover left = left ∧ ¬Complete (leftover left) := by
  induction left using completeExtensions.induct with
  | case1 left complete ih =>
    rw [completeExtensions, leftover, dif_pos complete, dif_pos complete, encodeAll_cons,
      append_assoc, ih.1]
    exact ⟨firstExtension_encode complete, ih.2⟩
  | case2 left incomplete =>
    rw [completeExtensions, leftover, dif_neg incomplete, dif_neg incomplete]
    exact ⟨rfl, incomplete⟩

end

/-- The counter of the loop after an extension with so many bytes behind it. -/
def counterAfter (i : Nat) (e : Extension) (behind : Nat) : Nat :=
  if e.id = 11 then
    (if e.body.length = 0 then behind - 1 else e.body.length - 1) + (4 + e.body.length)
  else i + (4 + e.body.length)

/-- The number of extensions that the loop visits if its counter is `i` at the first of
them; `rest` is the number of bytes behind them all. -/
def visits (totExtensionLen rest : Nat) : Nat → List Extension → Nat
  | _, [] => 0
  | i, e :: es =>
    if i < totExtensionLen then
      visits totExtensionLen rest (counterAfter i e ((encodeAll es).length + rest)) es + 1
    else 0

/-- The length of an ALPN list, with `behind` the bytes behind the extension, does not end in
a payload of this length. -/
def rejects (payloadLen : Nat) (e : Extension) (behind : Bytes) : Bool :=
  e.id = 16 && 2 < (e.body ++ behind).length &&
    payloadLen < wrap16 (be16At (e.body ++ behind) 0 +
      (payloadLen - (e.body ++ behind).length + 2))

/-- None of the first `count` extensions is an ALPN extension that ends the function. -/
def accepts (payloadLen : Nat) (rest : Bytes) : Nat → List Extension → Bool
  | 0, _ => true
  | _, [] => true
  | count + 1, e :: es =>
    !rejects payloadLen e (encodeAll es ++ rest) && accepts payloadLen rest count es

section

variable {p : Bytes} {totExtensionLen : Nat}

@[simp] lemma serverPointFormats_offset (s : ServerWalk) :
    (serverPointFormats p len s).offset = s.offset := by
  unfold serverPointFormats
  dsimp only
  split <;> rfl

@[simp] lemma serverPointFormats_tlsExtension (s : ServerWalk) :
    (serverPointFormats p len s).ja.tlsExtension = s.ja.tlsExtension := by
  unfold serverPointFormats
  dsimp only
  split <;> rfl

variable {rest : Bytes} {s : ServerWalk} {e : Extension}

/-- An ec_point_formats extension starts the counter anew; an empty one takes it to the end
of the payload. -/
lemma serverPointFormats_i (small : p.length < 65536) (here : At p s.offset e rest)
    (behind : rest ≠ []) :
    (serverPointFormats p e.body.length s).i =
      if e.body.length = 0 then rest.length - 1 else e.body.length - 1 := by
  have length := here.length
  have positive := length_pos_iff.mpr behind
  have unwrapped : wrap16 (s.offset + 4 + 1) = s.offset + 5 := wrap16_of_lt (by omega)
  have check : sub32 (s.offset + 5 + e.body.length) 1 = s.offset + 4 + e.body.length := by
    rw [sub32_of_le (by omega)]
    omega
  unfold serverPointFormats
  dsimp only
  rw [unwrapped, check, if_pos (by omega)]
  dsimp only
  split
  case isTrue empty =>
    rw [empty, sub32_of_lt (by decide), length]
    omega
  case isFalse nonempty =>
    rw [sub32_of_le (by omega), length]
    omega

/-- Every branch that stays in the loop goes on behind the extension. -/
lemma serverExtension_offset {id len : Nat} {s t : ServerWalk}
    (stays : serverExtension p id len s = .stay t) : t.offset = s.offset + (4 + len) := by
  unfold serverExtension at stays
  split at stays
  · split at stays
    · obtain rfl := Turn.stay.inj stays
      rfl
    · obtain rfl := Turn.stay.inj stays
      rfl
  split at stays
  · split at stays
    · cases stays
    · obtain rfl := Turn.stay.inj stays
      rfl
  split at stays
  · obtain rfl := Turn.stay.inj stays
    rw [ServerWalk.advance, serverPointFormats_offset]
  · obtain rfl := Turn.stay.inj stays
    rfl

lemma serverTurn_decreases (s t : ServerWalk) (stays : serverTurn p totExtensionLen s = .stay t) :
    p.length - t.offset < p.length - s.offset := by
  unfold serverTurn at stays
  dsimp only at stays
  split at stays
  case isTrue => cases stays
  split at stays
  case isTrue => cases stays
  case isFalse inside =>
  split at stays
  case isTrue => cases stays
  have further := serverExtension_offset stays
  dsimp only at further
  omega

/-- The check of an ALPN extension, in terms of the bytes behind its header. -/
lemma serverAlpnTooLong_at (here : At p offset e rest) (alpn : e.id = 16)
    (room : offset + 6 < p.length) :
    rejects p.length e rest = serverAlpnTooLong p offset := by
  have length := here.length
  have list : be16At p (offset + 4) = be16At (e.body ++ rest) 0 := be16At_of_drop here.body 0
  have bytes : (e.body ++ rest).length = e.body.length + rest.length := length_append
  have start : p.length - (e.body ++ rest).length + 2 = offset + 4 + 2 := by omega
  unfold rejects serverAlpnTooLong
  rw [start, list, alpn, decide_eq_true rfl, decide_eq_true (by omega), Bool.true_and]
  rfl

lemma serverTurn_at (here : At p offset e rest) (more : i < totExtensionLen) :
    serverTurn p totExtensionLen ⟨i, offset, ja⟩ =
      serverExtension p e.id.toNat e.body.length
        ⟨i, offset, { ja with tlsExtension := pushJa ja.tlsExtension e.id.toNat }⟩ := by
  have length := here.length
  unfold serverTurn
  dsimp only
  rw [here.id, here.len, if_neg (not_not_intro more), if_neg (by omega), if_neg (by omega)]

lemma serverExtension_rejected (here : At p s.offset e rest)
    (rejected : rejects p.length e rest = true) :
    serverExtension p e.id.toNat e.body.length s = .leave none := by
  have alpn : e.id = 16 := by
    simp only [rejects, Bool.and_eq_true, decide_eq_true_eq] at rejected
    exact rejected.1.1
  have room : s.offset + 6 < p.length := by
    simp only [rejects, Bool.and_eq_true, decide_eq_true_eq, length_append] at rejected
    have length := here.length
    omega
  rw [serverAlpnTooLong_at here alpn room] at rejected
  have id : e.id.toNat = 16 := by rw [alpn]; rfl
  rw [serverExtension, id, if_neg (by decide), if_pos ⟨rfl, room⟩, if_pos rejected]

/-- What an extension does to the counter and to the list of ids, unless it ends the
function. -/
lemma serverExtension_accepted (small : p.length < 65536) (here : At p s.offset e rest)
    (accepted : rejects p.length e rest = false) :
    ∃ i' ja', serverExtension p e.id.toNat e.body.length s =
        .stay ⟨i', s.offset + (4 + e.body.length), ja'⟩ ∧
      (rest ≠ [] → i' = counterAfter s.i e rest.length) ∧
      ja'.tlsExtension = s.ja.tlsExtension := by
  have is : ∀ id : UInt16, e.id.toNat = id.toNat ↔ e.id = id := fun id => UInt16.toNat_inj
  have plain : e.id ≠ 11 → s.i + (4 + e.body.length) = counterAfter s.i e rest.length :=
    fun other => (if_neg other).symm
  unfold serverExtension
  split
  case isTrue versions =>
    have other : e.id ≠ 11 := by
      rw [(is 43).mp versions]
      decide
    split
    · exact ⟨_, _, rfl, fun _ => plain other, rfl⟩
    · exact ⟨_, _, rfl, fun _ => plain other, rfl⟩
  split
  case isTrue alpn =>
    have id : e.id = 16 := (is 16).mp alpn.1
    have other : e.id ≠ 11 := by
      rw [id]
      decide
    rw [← serverAlpnTooLong_at here id alpn.2, accepted]
    exact ⟨_, _, rfl, fun _ => plain other, rfl⟩
  split
  case isTrue formats =>
    refine ⟨(serverPointFormats p e.body.length s).i + (4 + e.body.length),
      (serverPointFormats p e.body.length s).ja, ?_, ?_, serverPointFormats_tlsExtension _⟩
    · rw [ServerWalk.advance, serverPointFormats_offset]
    · intro behind
      rw [counterAfter, if_pos ((is 11).mp formats), serverPointFormats_i small here behind]
  case isFalse others =>
    have other : e.id ≠ 11 := fun eleven => others ((is 11).mpr eleven)
    exact ⟨_, _, rfl, fun _ => plain other, rfl⟩

/-- The loop ends where the counter has reached the length of the block. -/
lemma serverTurn_done (done : ¬s.i < totExtensionLen) :
    serverTurn p totExtensionLen s = .leave (some s.ja) := by
  rw [serverTurn, if_pos done]

/-- The loop ends where there is no whole extension. -/
lemma serverTurn_incomplete (here : p.drop s.offset = rest) (incomplete : ¬Complete rest) :
    serverTurn p totExtensionLen s = .leave (some s.ja) := by
  have length := congrArg List.length here
  rw [length_drop] at length
  have len : be16At p (s.offset + 2) = be16At rest 2 := be16At_of_drop here 2
  unfold Complete at incomplete
  rw [serverTurn, len]
  split
  · rfl
  split
  · rfl
  · rw [if_pos (by omega)]

/-- The result of a run over these extensions, the first of which is at `offset`. -/
lemma ends_extensions {es : List Extension} {i offset : Nat} {ja : ServerInfo}
    (small : p.length < 65536) (here : p.drop offset = encodeAll es ++ rest)
    (incomplete : ¬Complete rest) :
    ∃ r, Ends (serverTurn p totExtensionLen) ⟨i, offset, ja⟩ r ∧
      r.map (·.tlsExtension) =
        if accepts p.length rest (visits totExtensionLen rest.length i es) es then
          some (((es.take (visits totExtensionLen rest.length i es)).map (·.id.toNat)).foldl pushJa
            ja.tlsExtension)
        else none := by
  induction es generalizing i offset ja with
  | nil => exact ⟨_, ends_of_leave (serverTurn_incomplete here incomplete), rfl⟩
  | cons e es ih =>
    by_cases more : i < totExtensionLen
    case neg =>
      rw [visits, if_neg more]
      exact ⟨_, ends_of_leave (serverTurn_done more), rfl⟩
    rw [encodeAll_cons, append_assoc] at here
    have found := at_of_drop here
    have turn : serverTurn p totExtensionLen ⟨i, offset, ja⟩ = _ := serverTurn_at found more
    rw [visits, if_pos more, accepts, take_succ_cons, map_cons, foldl_cons]
    cases rejected : rejects p.length e (encodeAll es ++ rest) with
    | true =>
      rw [serverExtension_rejected found rejected] at turn
      exact ⟨none, ends_of_leave turn, rfl⟩
    | false =>
      obtain ⟨i', ja', stays, counter, ids⟩ := serverExtension_accepted
        (s := ⟨i, offset, { ja with tlsExtension := pushJa ja.tlsExtension e.id.toNat }⟩)
        small found rejected
      rw [stays] at turn
      obtain ⟨r, ended, result⟩ := @ih i' _ ja' found.next
      refine ⟨r, (ends_iff_of_stay turn r).mpr ended, ?_⟩
      -- behind the last extension the counter no longer matters
      have same : visits totExtensionLen rest.length i' es =
          visits totExtensionLen rest.length
            (counterAfter i e ((encodeAll es).length + rest.length)) es := by
        cases es with
        | nil => rfl
        | cons f fs =>
          have behind : encodeAll (f :: fs) ++ rest ≠ [] := by
            apply ne_nil_of_length_pos
            rw [encodeAll_cons, length_append, length_append, Extension.encode_length]
            omega
          rw [counter behind, length_append]
      rw [result, same, ids, Bool.not_false, Bool.true_and]

end

lemma foldl_pushJa (xs list : List α) (short : list.length ≤ maxNumJa) :
    xs.foldl pushJa list = (list ++ xs).take maxNumJa := by
  induction xs generalizing list with
  | nil => rw [foldl_nil, append_nil, take_of_length_le short]
  | cons x xs ih =>
    rw [foldl_cons, pushJa]
    split
    case isTrue room =>
      rw [ih _ (by rw [length_append]; exact room), append_assoc, singleton_append]
    case isFalse full =>
      have exact128 : list.length = maxNumJa := by omega
      rw [ih _ short, take_append_of_le_length exact128.ge, take_append_of_le_length exact128.ge]

/-- The extensions that the loop can come across: those of the block and those that the
bytes behind it are read as. -/
def ServerHello.reachable (m : ServerHello) : List Extension :=
  m.extensions ++ completeExtensions m.trailing

/-- The number of extensions that the loop visits. -/
def ServerHello.visited (m : ServerHello) : Nat :=
  visits (encodeAll m.extensions).length (leftover m.trailing).length 0 m.reachable

/-- What is recorded of a server hello. -/
lemma processServerHello_encode {ctx : HelloContext} {m : ServerHello}
    (fits : m.Fits ctx.isDtls) (skipped : ctx.udp = true ∨ m.head.version.toNat < 0x7F15) :
    (processServerHello ctx (m.encode ctx.isDtls)).map (·.tlsExtension) =
      if accepts (m.encode ctx.isDtls).length (leftover m.trailing) m.visited m.reachable then
        some (((m.reachable.take m.visited).map (·.id.toNat)).take maxNumJa)
      else none := by
  have start : helloStart ctx (m.encode ctx.isDtls) = _ := helloStart_encode fits.declared
  have small := fits.small
  have atCipher : (m.encode ctx.isDtls).drop
      (baseOffset ctx.isDtls + (m.head.sessionId.length + 1)) = _ :=
    drop_left' HelloHead.encode_length
  have length := length_of_drop atCipher (by simp)
  rw [length_append, length_append, length_append, beBytes_length, beBytes_length,
    length_singleton] at length
  generalize m.encode ctx.isDtls = p at start small atCipher length ⊢
  generalize baseOffset ctx.isDtls = base at start atCipher length
  have atCompression := drop_add_of_drop atCipher (beBytes_length 2 _)
  have atLength := drop_add_of_drop atCompression length_singleton
  have atBlock := drop_add_of_drop atLength (beBytes_length 2 _)
  have blockSmall : (encodeAll m.extensions).length < 65536 := by
    rw [length_append] at length
    omega
  have tot : be16At p (base + (m.head.sessionId.length + 1) + 3) =
      (encodeAll m.extensions).length := be16At_field atLength blockSmall
  have reachable : p.drop (base + (m.head.sessionId.length + 1) + 3 + 2) =
      encodeAll m.reachable ++ leftover m.trailing := by
    apply atBlock.trans
    rw [ServerHello.reachable, encodeAll_append, append_assoc, completeExtensions_leftover.1]
  unfold processServerHello
  rw [start]
  dsimp only
  rw [if_neg (not_not_intro rfl), if_pos skipped, if_neg (by omega), if_pos (by omega), tot]
  obtain ⟨r, ended, result⟩ := @ends_extensions p (encodeAll m.extensions).length
    (leftover m.trailing) m.reachable 0 _
    ⟨m.head.version.toNat, be16At p (base + (m.head.sessionId.length + 1)), [], 0, []⟩ small
    reachable completeExtensions_leftover.2
  rw [loop_of_ends (fun s => p.length - s.offset) serverTurn_decreases (by dsimp only; omega) ended,
    Option.join_some, result, foldl_pushJa _ _ (Nat.zero_le _), nil_append]
  rfl

/-- The counter behind these extensions, of `whole` bytes from the block on: the bytes since the
last ec_point_formats extension, and with it twice the length of its body and 3, or for an
empty one all the bytes behind it and 3; without one, all the bytes before. -/
def counter (whole : Nat) (before : List Extension) : Nat :=
  (encodeAll (before.reverse.takeWhile (·.id ≠ 11))).length +
    match before.reverse.dropWhile (·.id ≠ 11) with
    | [] => 0
    | formats :: earlier =>
      if formats.body.length = 0 then whole - (encodeAll (formats :: earlier)).length + 3
      else 2 * formats.body.length + 3

lemma encodeAll_reverse_length (es : List Extension) :
    (encodeAll es.reverse).length = (encodeAll es).length := by
  induction es with
  | nil => rfl
  | cons e es ih =>
    rw [reverse_cons, encodeAll_append, encodeAll_cons, length_append, length_append, ih]
    simp [Nat.add_comm]

lemma counter_concat (whole : Nat) (before : List Extension) (e : Extension)
    (behind : (encodeAll (before ++ [e])).length < whole) :
    counter whole (before ++ [e]) =
      counterAfter (counter whole before) e (whole - (encodeAll (before ++ [e])).length) := by
  have bytes := encodeAll_reverse_length before
  rw [encodeAll_append, length_append, encodeAll_cons, encodeAll_nil, append_nil,
    Extension.encode_length] at behind ⊢
  unfold counter counterAfter
  rw [reverse_append, reverse_singleton, singleton_append]
  by_cases formats : e.id = 11
  · rw [takeWhile_cons_of_neg (by simpa using formats), if_pos formats,
      dropWhile_cons_of_neg (by simpa using formats)]
    simp only [encodeAll_cons, length_append, Extension.encode_length, bytes, encodeAll_nil,
      length_nil]
    split <;> omega
  · rw [takeWhile_cons_of_pos (by simpa using formats), if_neg formats,
      dropWhile_cons_of_pos (by simpa using formats), encodeAll_cons, length_append,
      Extension.encode_length]
    omega

/-- An extension is visited exactly if the counter is below the length of the block there and
at all extensions before. -/
lemma lt_visits_iff {done es : List Extension}
    (whole : (encodeAll (done ++ es)).length + rest = n) :
    k < visits totExtensionLen rest (counter n done) es ↔
      k < es.length ∧ ∀ j ≤ k, counter n (done ++ es.take j) < totExtensionLen := by
  induction es generalizing done k with
  | nil => simp [visits]
  | cons e es ih =>
    rw [append_cons] at whole
    rw [visits]
    split
    · next below =>
      cases k with
      | zero => simp [below]
      | succ k =>
        cases es with
        | nil => simp [visits]
        | cons f fs =>
          have behind : n - (encodeAll (done ++ [e])).length =
              (encodeAll (f :: fs)).length + rest := by
            rw [encodeAll_append, length_append] at whole
            omega
          have inside : (encodeAll (done ++ [e])).length < n := by
            rw [encodeAll_cons, length_append, Extension.encode_length] at behind
            omega
          rw [← behind, ← counter_concat n done e inside, Nat.add_lt_add_iff_right, ih whole,
            @length_cons _ e, Nat.add_lt_add_iff_right]
          refine and_congr_right fun _ => ⟨fun all j within => ?_, fun all j within => ?_⟩
          · cases j with
            | zero => simpa using below
            | succ j => simpa using all j (by omega)
          · simpa using all (j + 1) (by omega)
    · next above =>
      refine iff_of_false (Nat.not_lt_zero k) fun all => above ?_
      simpa using all.2 0 (Nat.zero_le k)

lemma accepts_iff {es : List Extension} {n : Nat} :
    accepts payloadLen rest n es = true ↔ ∀ k e, k < n → es[k]? = some e →
      rejects payloadLen e (encodeAll (es.drop (k + 1)) ++ rest) = false := by
  induction es generalizing n with
  | nil => cases n <;> simp [accepts]
  | cons first es ih =>
    cases n with
    | zero => simp [accepts]
    | succ n =>
      rw [accepts, Bool.and_eq_true, ih, Bool.not_eq_true']
      constructor
      · rintro ⟨here, later⟩ (_ | k) e within found
        · cases found
          exact here
        · exact later k e (by omega) found
      · intro all
        exact ⟨all 0 first (by omega) rfl, fun k e within => all (k + 1) e (by omega)⟩

/-- The counter at the extension with this index. -/
def ServerHello.counterAt (m : ServerHello) (k : Nat) : Nat :=
  counter (encodeAll m.extensions ++ m.trailing).length (m.reachable.take k)

/-- The counter lets the first 128 extensions of the block pass and ends there, if there are
fewer and others could be read; and no extension that is reached is an ALPN extension that
ends the function. -/
structure ServerHello.Walked (m : ServerHello) (payloadLen : Nat) : Prop where
  passes : ∀ k < min m.extensions.length 128, m.counterAt k < (encodeAll m.extensions).length
  ends : m.extensions.length < 128 → Complete m.trailing →
    (encodeAll m.extensions).length ≤ m.counterAt m.extensions.length
  returns : ∀ k e, m.reachable[k]? = some e →
    (∀ j ≤ k, m.counterAt j < (encodeAll m.extensions).length) →
    rejects payloadLen e (encodeAll (m.reachable.drop (k + 1)) ++ leftover m.trailing) = false

lemma lt_visited_iff (m : ServerHello) : k < m.visited ↔
    k < m.reachable.length ∧ ∀ j ≤ k, m.counterAt j < (encodeAll m.extensions).length := by
  have whole : (encodeAll ([] ++ m.reachable)).length + (leftover m.trailing).length =
      (encodeAll m.extensions ++ m.trailing).length := by
    rw [nil_append, ServerHello.reachable, encodeAll_append, ← length_append, append_assoc,
      completeExtensions_leftover.1]
  exact lt_visits_iff whole

lemma visited_enough_iff (m : ServerHello) : min m.extensions.length 128 ≤ m.visited ↔
    ∀ k < min m.extensions.length 128, m.counterAt k < (encodeAll m.extensions).length := by
  constructor
  · intro enough k within
    exact ((lt_visited_iff m).mp (Nat.lt_of_lt_of_le within enough)).2 k le_rfl
  · intro passes
    by_contra few
    refine Nat.lt_irrefl m.visited ((lt_visited_iff m).mpr ⟨?_, fun j within => passes j ?_⟩)
    · rw [ServerHello.reachable, length_append]
      omega
    · omega

lemma visited_beyond_iff (m : ServerHello)
    (passes : ∀ k < m.extensions.length, m.counterAt k < (encodeAll m.extensions).length) :
    m.extensions.length < m.visited ↔ Complete m.trailing ∧
      m.counterAt m.extensions.length < (encodeAll m.extensions).length := by
  have more : m.extensions.length < m.reachable.length ↔ Complete m.trailing := by
    rw [ServerHello.reachable, length_append, completeExtensions]
    split <;> simp [*]
  rw [lt_visited_iff, more]
  refine and_congr_right fun _ => ⟨fun all => all _ le_rfl, fun last j within => ?_⟩
  rcases Nat.lt_or_eq_of_le within with early | rfl
  · exact passes j early
  · exact last

lemma accepts_visited_iff (m : ServerHello) :
    accepts payloadLen (leftover m.trailing) m.visited m.reachable = true ↔
      ∀ k e, m.reachable[k]? = some e →
        (∀ j ≤ k, m.counterAt j < (encodeAll m.extensions).length) →
        rejects payloadLen e (encodeAll (m.reachable.drop (k + 1)) ++ leftover m.trailing) =
          false := by
  rw [accepts_iff]
  refine forall₂_congr fun k e => ⟨fun all found passed => ?_, fun all visited found => ?_⟩
  · exact all ((lt_visited_iff m).mpr ⟨(List.getElem?_eq_some_iff.mp found).1, passed⟩) found
  · exact all found ((lt_visited_iff m).mp visited).2

/-- The first 128 ids are those of the block by the number of extensions visited. -/
lemma recorded_iff {ctx : HelloContext} {m : ServerHello} (fits : m.Fits ctx.isDtls)
    (skipped : ctx.udp = true ∨ m.head.version.toNat < 0x7F15) :
    (processServerHello ctx (m.encode ctx.isDtls)).map (·.tlsExtension) =
        some ((m.extensions.map (·.id.toNat)).take 128) ↔
      accepts (m.encode ctx.isDtls).length (leftover m.trailing) m.visited m.reachable = true ∧
        min m.visited 128 = min m.extensions.length 128 := by
  have within : m.visited ≤ m.reachable.length :=
    Nat.le_of_not_lt fun beyond => Nat.lt_irrefl _ ((lt_visited_iff m).mp beyond).1
  have block : m.extensions.map (·.id.toNat) =
      (m.reachable.map (·.id.toNat)).take m.extensions.length := by
    rw [← map_take, ServerHello.reachable, take_left' rfl]
  have bounded : m.extensions.length ≤ m.reachable.length := by
    rw [ServerHello.reachable, length_append]
    omega
  rw [processServerHello_encode fits skipped]
  split
  case isTrue returns =>
    rw [Option.some.injEq, block, map_take, take_take, take_take, take_eq_take_iff, length_map,
      maxNumJa, and_iff_right returns]
    omega
  case isFalse rejected => exact iff_of_false (by simp) fun both => rejected both.1

/-- The ids that are recorded of a server hello are the first 128 of its extensions block if
and only if the counter lets just these pass and no ALPN extension ends the function. -/
theorem extensions_recorded_iff (ctx : HelloContext) (m : ServerHello)
    (fits : m.Fits ctx.isDtls) (skipped : ctx.udp = true ∨ m.head.version.toNat < 0x7F15) :
    (processServerHello ctx (m.encode ctx.isDtls)).map (·.tlsExtension) =
        some ((m.extensions.map (·.id.toNat)).take 128) ↔
      m.Walked (m.encode ctx.isDtls).length := by
  rw [recorded_iff fits skipped, accepts_visited_iff]
  constructor
  · rintro ⟨returns, same⟩
    have passes := (visited_enough_iff m).mp (by omega)
    refine ⟨passes, fun few complete => ?_, returns⟩
    by_contra below
    have beyond := (visited_beyond_iff m fun k inside => passes k (by omega)).mpr
      ⟨complete, Nat.lt_of_not_le below⟩
    omega
  · rintro ⟨passes, ends, returns⟩
    have enough := (visited_enough_iff m).mpr passes
    refine ⟨returns, ?_⟩
    by_cases few : m.extensions.length < 128
    · have stops : ¬m.extensions.length < m.visited := by
        rw [visited_beyond_iff m fun k inside => passes k (by omega)]
        exact fun beyond => absurd (ends few beyond.1) (Nat.not_le_of_lt beyond.2)
      omega
    · omega

lemma sampleBody_small {body : Bytes} (short : body.length ≤ 16) : body.length < 65536 := by omega

lemma versionBody_short : ([0x03, 0x04] : Bytes).length ≤ 16 := by decide

lemma inStepBody_short : ([6, 0, 1, 2, 3, 4, 5] : Bytes).length ≤ 16 := by decide

lemma formatsBody_short : ([4, 0, 1, 2, 3] : Bytes).length ≤ 16 := by decide

/-- An ec_point_formats extension that leaves the counter as it is, six bytes behind the start
of the block, and a change cipher spec record behind the block. -/
def versionsHello : ServerHello :=
  ⟨sampleHead 61, 0x1301, 0, [⟨43, [0x03, 0x04], sampleBody_small versionBody_short⟩,
    ⟨11, [6, 0, 1, 2, 3, 4, 5], sampleBody_small inStepBody_short⟩, ⟨35, [], empty_small⟩],
    [0x14, 0x03, 0x03, 0x00, 0x01, 0x01]⟩

/-- An ec_point_formats extension with four formats, and an empty session_ticket
extension. -/
def formatsHello : ServerHello :=
  ⟨sampleHead 53, 0xC02F, 0, [⟨11, [4, 0, 1, 2, 3], sampleBody_small formatsBody_short⟩,
    ⟨35, [], empty_small⟩], []⟩

theorem versionsHello_recorded :
    versionsHello.Fits tcpContext.isDtls ∧
      (processServerHello tcpContext (versionsHello.encode tcpContext.isDtls)).map
        (·.tlsExtension) = some ((versionsHello.extensions.map (·.id.toNat)).take 128) := by
  have fits : versionsHello.Fits tcpContext.isDtls := ⟨by decide +kernel, by decide +kernel⟩
  have plain : ∀ e ∈ versionsHello.reachable, e.id ≠ 16 := by decide +kernel
  refine ⟨fits, ?_⟩
  refine (extensions_recorded_iff tcpContext versionsHello fits (.inr (by decide))).mpr
    ⟨by decide +kernel, by decide +kernel, fun k e found _ => ?_⟩
  simp [rejects, plain e (mem_of_getElem? found)]

/-- The counter is at 13 after the first extension, where the block ends; the second
extension, at 9, is not seen. -/
theorem formatsHello_extension_missed :
    formatsHello.Fits tcpContext.isDtls ∧
      (processServerHello tcpContext (formatsHello.encode tcpContext.isDtls)).map
        (·.tlsExtension) = some [11] ∧
      (formatsHello.extensions.map (·.id.toNat)).take 128 = [11, 35] :=
  ⟨⟨by decide +kernel, by decide +kernel⟩, by decide +kernel, by decide +kernel⟩

end Ndpi.Guarantees.ServerExtensions
