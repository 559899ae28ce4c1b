import Ndpi.Refinement.TlsClientHello

/-!
# The ALPN characters of the JA4 fingerprint

The names of an ALPN extension are joined with commas, and the first and the last character
of the first name go into the fingerprint. The last character of the joined text is
overwritten before the first one is taken, so that a single name of one character is lost,
and a first name of more than 253 bytes is not taken at all.
-/
namespace Ndpi.Guarantees.Ja4Alpn
open Lib Source.Tls Refinement.TlsFields Refinement.TlsHello List Option
open Refinement.TlsClientHello

section

def encodeNames (names : List Bytes) : Bytes :=
  names.flatMap fun name => [UInt8.ofNat name.length] ++ name

/-- The names of an ALPN extension, the first of which is not empty and has no separators. -/
structure AlpnOffer where
  first : Bytes
  others : List Bytes
  nonempty : first ≠ []
  plain : ∀ c ∈ first, c ≠ 0x3B ∧ c ≠ 0x2C
  short : ∀ name ∈ first :: others, name.length < 256
  small : (encodeNames (first :: others)).length + 2 < 65536

def AlpnOffer.names (offer : AlpnOffer) : List Bytes := offer.first :: offer.others

def AlpnOffer.body (offer : AlpnOffer) : Bytes :=
  beBytes 2 (encodeNames offer.names).length ++ encodeNames offer.names

lemma AlpnOffer.body_small (offer : AlpnOffer) : offer.body.length < 65536 := by
  have small := offer.small
  rw [body, length_append, beBytes_length, names]
  omega

def AlpnOffer.extension (offer : AlpnOffer) : Extension := ⟨16, offer.body, offer.body_small⟩

/-- The names that fit, joined with commas, behind a text. -/
def joinNames (text : Bytes) : List Bytes → Bytes
  | [] => text
  | name :: names =>
    if text.length + name.length + 1 < 255 then
      joinNames ((if text = [] then [] else text ++ [0x2C]) ++ name) names
    else text

variable {p rest : Bytes}

/-- The loop over the names of a list that ends at `stop`. -/
lemma joinAlpn_names
    (here : p.drop sOffset = encodeNames names ++ rest) (short : ∀ name ∈ names, name.length < 256)
    (ends : stop = sOffset + (encodeNames names).length) :
    joinAlpn p stop stop sOffset text = joinNames text names := by
  induction names generalizing sOffset text with
  | nil =>
    rw [joinAlpn, if_neg (by rw [ends]; simp [encodeNames])]
    rfl
  | cons name names ih =>
    have bytes : p.drop sOffset =
        [UInt8.ofNat name.length] ++ (name ++ (encodeNames names ++ rest)) := by
      rw [here, encodeNames, flatMap_cons, append_assoc, append_assoc]
      rfl
    have length := length_of_drop bytes (by simp)
    rw [length_append, length_append, length_singleton] at length
    have total : stop = sOffset + 1 + name.length + (encodeNames names).length := by
      rw [ends, encodeNames, flatMap_cons, length_append, length_append,
        length_singleton, ← encodeNames]
      omega
    have nameLen := byteAt_field bytes (short name (mem_cons_self ..))
    have atName := drop_add_of_drop bytes length_singleton
    have copied : (p.drop (sOffset + 1)).take name.length = name := by
      rw [atName, take_left' rfl]
    rw [joinAlpn, if_pos (by omega), nameLen, joinNames]
    dsimp only
    rw [copied]
    split
    case isTrue fits =>
      rw [if_pos fits.2]
      exact ih (drop_add_of_drop atName rfl)
        (fun other member => short other (mem_cons_of_mem _ member)) total
    case isFalse tight => rw [if_neg (fun fits => tight ⟨by omega, fits⟩)]

/-- The text of an ALPN extension at its place in the payload. -/
lemma clientAlpnText_at {offer : AlpnOffer} (small : p.length < 65536)
    (here : At p offset offer.extension rest) :
    clientAlpnText p (offset + 4) = joinNames [] offer.names := by
  have length := here.length
  have body : p.drop (offset + 4) = beBytes 2 (encodeNames offer.names).length ++
      (encodeNames offer.names ++ rest) := by
    rw [here.body]
    exact append_assoc ..
  have bodyLength : offer.extension.body.length = 2 + (encodeNames offer.names).length := by
    change offer.body.length = _
    rw [AlpnOffer.body, length_append, beBytes_length]
  have list := be16At_field body (by omega)
  have stop : wrap16 (be16At p (offset + 4) + (offset + 4 + 2)) =
      offset + 4 + 2 + (encodeNames offer.names).length := by
    rw [list, wrap16_of_lt (by omega), Nat.add_comm]
  rw [clientAlpnText, stop, Nat.min_eq_left (by omega)]
  exact joinAlpn_names (drop_add_of_drop body (beBytes_length 2 _)) offer.short rfl

end

section

variable {text : Bytes}

lemma joinNames_prefix (nonempty : text ≠ []) : ∃ tail, joinNames text names = text ++ tail := by
  induction names generalizing text with
  | nil => exact ⟨[], (append_nil _).symm⟩
  | cons name names ih =>
    rw [joinNames, if_neg nonempty]
    split
    · obtain ⟨tail, joined⟩ := ih (by simp : text ++ [0x2C] ++ name ≠ [])
      exact ⟨[0x2C] ++ name ++ tail, by rw [joined, append_assoc, append_assoc, append_assoc]⟩
    · exact ⟨[], (append_nil _).symm⟩

/-- The next name fits behind this text. -/
def nextFits (text : Bytes) (names : List Bytes) : Prop :=
  ∃ name ∈ names.head?, text.length + name.length + 1 < 255

/-- Behind a name there is a comma, if the next name fits, or else nothing. -/
lemma joinNames_tail (nonempty : text ≠ []) :
    (nextFits text names ∧ ∃ tail, joinNames text names = text ++ 0x2C :: tail) ∨
      (¬nextFits text names ∧ joinNames text names = text) := by
  cases names with
  | nil =>
    right
    exact ⟨by simp [nextFits], rfl⟩
  | cons name names =>
    rw [joinNames, if_neg nonempty]
    by_cases fits : text.length + name.length + 1 < 255
    · left
      obtain ⟨tail, joined⟩ := joinNames_prefix (by simp : text ++ [0x2C] ++ name ≠ [])
      refine ⟨⟨name, rfl, fits⟩, name ++ tail, ?_⟩
      rw [if_pos fits, joined, append_assoc, append_assoc]
      rfl
    · right
      refine ⟨?_, if_neg fits⟩
      rintro ⟨other, same, smaller⟩
      obtain rfl := Option.some.inj same
      exact fits smaller

lemma joinNames_length (short : text.length < 255) (names : List Bytes) :
    (joinNames text names).length < 255 := by
  induction names generalizing text with
  | nil => exact short
  | cons name names ih =>
    rw [joinNames]
    split
    case isTrue fits =>
      apply ih
      split
      · rw [nil_append]
        omega
      · rw [length_append, length_append, length_singleton]
        omega
    case isFalse => exact short

lemma dashes_first (other : c ≠ 0x2C) : byteAt (dashes (c :: bytes)) 0 = c := by
  by_cases zero : c = 0
  · rw [dashes, takeWhile_cons_of_neg (by simp [zero]),
      dropWhile_cons_of_neg (by simp [zero])]
    rfl
  · rw [dashes, takeWhile_cons_of_pos (by simp [zero]), map_cons, if_neg other]
    rfl

/-- The first character is still there if the text has more than one. -/
lemma storeAlpn_first {text : Bytes} (other : c ≠ 0x2C)
    (room : (c :: text).length ≤ alpn.length) :
    byteAt (storeAlpn alpn (c :: text)) 0 = if text = [] then 0 else c := by
  rw [storeAlpn, take_of_length_le room]
  cases text with
  | nil => exact dashes_first (by decide)
  | cons d more => exact dashes_first other

/-- The name before the first separator. -/
lemma alpnOriginalLast_name {tail : Bytes}
    (plain : ∀ c ∈ name, c ≠ 0x3B ∧ c ≠ 0x2C) (separated : tail = [] ∨ tail.head? = some 0x2C) :
    alpnOriginalLast (name ++ tail) = name.getLast?.getD 0x30 := by
  have stops : tail.takeWhile (fun c => decide (c ≠ 0x3B ∧ c ≠ 0x2C)) = [] := by
    rcases separated with rfl | comma
    · rfl
    · cases tail with
      | nil => rfl
      | cons c tail =>
        obtain rfl := Option.some.inj comma
        rfl
  rw [alpnOriginalLast, takeWhile_append_of_pos (by simpa using plain), stops, append_nil]

end

section

/-- What is known of the ALPN extension. -/
def alpnOf (ja : ClientInfo) : Bytes × UInt8 := (ja.alpn, ja.alpnOriginalLast)

variable {env : HelloEnv} {p : Bytes}

@[simp] lemma noteExtension_alpnOf (id : Nat) : alpnOf (noteExtension id ja) = alpnOf ja := by
  unfold noteExtension
  split <;> rfl

/-- The other extensions leave the ALPN fields alone. -/
lemma clientExtension_alpnOf {bodyOffset len id : Nat} (other : id ≠ 16) :
    alpnOf (clientExtension env p bodyOffset len id ja flow).1 = alpnOf ja := by
  unfold clientExtension
  split
  · rfl
  split
  · unfold clientGroups
    dsimp only
    split <;> rfl
  split
  · unfold clientPointFormats
    dsimp only
    split <;> rfl
  split
  · rfl
  rw [if_neg (fun alpn => other alpn.1)]
  split
  · unfold clientVersions
    dsimp only
    split <;> rfl
  · rfl

lemma walk_alpnOf (others : ∀ e ∈ es, e.id ≠ 16) :
    alpnOf (walk env p offset es st).1 = alpnOf st.1 := by
  induction es generalizing offset st with
  | nil => rfl
  | cons e es ih =>
    have other : e.id.toNat ≠ 16 :=
      fun alpn => others e (mem_cons_self ..) (UInt16.toNat_inj.mp alpn)
    rw [walk, ih (fun f member => others f (mem_cons_of_mem _ member)), visit,
      clientExtension_alpnOf other, noteExtension_alpnOf]

/-- The ALPN extension replaces them. -/
lemma visit_offer {offer : AlpnOffer} {rest : Bytes} (small : p.length < 65536)
    (here : At p offset offer.extension rest) (empty : alpnOf st.1 = (List.replicate 256 0, 0x30)) :
    alpnOf (visit env p offset offer.extension st).1 =
      (storeAlpn (List.replicate 256 0) (joinNames [] offer.names),
        alpnOriginalLast (joinNames [] offer.names)) := by
  have length := here.length
  have room : 2 ≤ offer.extension.body.length := by
    change 2 ≤ offer.body.length
    rw [AlpnOffer.body, length_append, beBytes_length]
    omega
  have noted := (noteExtension_alpnOf 16).trans empty
  have id : offer.extension.id.toNat = 16 := rfl
  have short := joinNames_length (by decide : ([] : Bytes).length < 255) offer.names
  have alpn : (noteExtension 16 st.1).alpn = List.replicate 256 0 := congrArg Prod.fst noted
  unfold visit clientExtension
  rw [id, if_neg (by decide), if_neg (by decide), if_neg (by decide), if_neg (by omega),
    if_pos ⟨rfl, by omega⟩, alpnOf, clientAlpn, clientAlpnText_at small here]
  rw [alpn, take_of_length_le (by rw [length_replicate]; omega)]

/-- The ALPN fields of a client hello message with one ALPN extension. -/
lemma walked_alpnOf (env : HelloEnv) {m : ClientHello} (flow : HelloFlow)
    (fits : m.Fits dtls) {offer : AlpnOffer} {after : List Extension}
    (extensions : m.extensions = before ++ offer.extension :: after)
    (only : ∀ e ∈ before ++ after, e.id ≠ 16) :
    alpnOf (m.walked env dtls flow).1 =
      (storeAlpn (List.replicate 256 0) (joinNames [] offer.names),
        alpnOriginalLast (joinNames [] offer.names)) := by
  have block := m.drop_extensionsOffset dtls
  rw [extensions, encodeAll_append, encodeAll_cons, append_assoc, append_assoc] at block
  have here := at_of_drop (drop_add_of_drop block rfl)
  rw [ClientHello.walked, extensions, walk_append, walk,
    walk_alpnOf (fun e member => only e (mem_append_right _ member))]
  apply visit_offer fits.small here
  rw [walk_alpnOf (fun e member => only e (mem_append_left _ member))]
  rfl

end

section

lemma versionChars_length : (versionChars version).length = 2 := by
  unfold versionChars
  split <;> rfl

/-- The two characters of the fingerprint. -/
lemma ndpiComputeJa4_alpn (sha256 : Bytes → Bytes) (cfg : Ja4Config) (ctx : HelloContext)
    (flow : HelloFlow) (ja : ClientInfo) :
    (ndpiComputeJa4 sha256 cfg ctx flow ja).client[8]? =
        some (if byteAt ja.alpn 0 ≠ 0 then byteAt ja.alpn 0 else 0x30) ∧
      (ndpiComputeJa4 sha256 cfg ctx flow ja).client[9]? = some ja.alpnOriginalLast := by
  obtain ⟨a, b, version⟩ := length_eq_two.mp versionChars_length
  unfold ndpiComputeJa4 ja4Head
  rw [version]
  exact ⟨rfl, rfl⟩

/-- The first character of the fingerprint's ALPN part. -/
def alpnFirst (names : List Bytes) : UInt8 :=
  let first := byteAt (storeAlpn (List.replicate 256 0) (joinNames [] names)) 0
  if first ≠ 0 then first else 0x30

variable {offer : AlpnOffer}

/-- The fingerprint has the ALPN characters of the list of names. -/
lemma ja4_alpn {env : HelloEnv} {ctx : HelloContext} {flow : HelloFlow} {m : ClientHello}
    (fits : m.Fits ctx.isDtls) {after : List Extension}
    (extensions : m.extensions = before ++ offer.extension :: after)
    (only : ∀ e ∈ before ++ after, e.id ≠ 16)
    (computed : (processClientHello env ctx flow (m.encode ctx.isDtls)).ja4 = some ja4) :
    ja4.client[8]? = some (alpnFirst offer.names) ∧
      ja4.client[9]? = some (alpnOriginalLast (joinNames [] offer.names)) := by
  have fields := walked_alpnOf env flow fits extensions only
  rw [processClientHello_encode fits, finish] at computed
  split at computed
  case isTrue => cases computed
  rw [HelloResult.computed] at computed
  split at computed
  case isFalse => cases computed
  obtain rfl := Option.some.inj computed
  obtain ⟨first, last⟩ := ndpiComputeJa4_alpn env.sha256 env.ja4 ctx
    (m.walked env ctx.isDtls flow).2 (m.walked env ctx.isDtls flow).1
  have alpn : (m.walked env ctx.isDtls flow).1.alpn = _ := congrArg Prod.fst fields
  have original : (m.walked env ctx.isDtls flow).1.alpnOriginalLast = _ := congrArg Prod.snd fields
  rw [first, last, alpn, original]
  exact ⟨rfl, rfl⟩

/-- The first name is in the joined text, if it fits. -/
lemma joinNames_first (fits : offer.first.length ≤ 253) :
    joinNames [] offer.names = joinNames offer.first offer.others := by
  rw [AlpnOffer.names, joinNames, if_pos (by rw [length_nil]; omega), if_pos rfl, nil_append]

lemma alpnOriginalLast_offer (fits : offer.first.length ≤ 253) :
    some (alpnOriginalLast (joinNames [] offer.names)) = offer.first.getLast? := by
  have last := getLast?_eq_some_getLast offer.nonempty
  rw [joinNames_first fits]
  obtain ⟨-, tail, joined⟩ | ⟨-, joined⟩ := joinNames_tail offer.nonempty
  · rw [joined, alpnOriginalLast_name offer.plain (.inr rfl), last]
    rfl
  · rw [joined, ← append_nil offer.first, alpnOriginalLast_name offer.plain (.inl rfl),
      append_nil, last]
    rfl

/-- There is a character behind the first one in the joined text. -/
def Followed (offer : AlpnOffer) : Prop :=
  2 ≤ offer.first.length ∨ ∃ second ∈ offer.others.head?, second.length < 253

lemma joinNames_cons (first : offer.first = c :: name) (fits : offer.first.length ≤ 253) :
    ∃ more, joinNames [] offer.names = c :: more ∧ (more ≠ [] ↔ Followed offer) := by
  have length : offer.first.length = name.length + 1 := by rw [first, length_cons]
  rw [joinNames_first fits]
  obtain ⟨⟨second, head, room⟩, tail, joined⟩ | ⟨alone, joined⟩ := joinNames_tail offer.nonempty
  · refine ⟨name ++ 0x2C :: tail, by rw [joined, first]; rfl, fun _ => ?_, fun _ => by simp⟩
    exact .inr ⟨second, head, by omega⟩
  · refine ⟨name, joined.trans first, fun more => ?_, fun followed => ?_⟩
    · have positive := length_pos_iff.mpr more
      exact .inl (by omega)
    · apply ne_nil_of_length_pos
      obtain long | ⟨second, head, short⟩ := followed
      · omega
      · by_contra single
        exact alone ⟨second, head, by omega⟩

/-- The first character is that of the first name, if another one follows. -/
lemma alpnFirst_offer (first : offer.first = c :: name) (fits : offer.first.length ≤ 253) :
    (Followed offer → alpnFirst offer.names = if c ≠ 0 then c else 0x30) ∧
      (¬Followed offer → alpnFirst offer.names = 0x30) := by
  have comma : c ≠ 0x2C := (offer.plain c (by rw [first]; exact mem_cons_self ..)).2
  obtain ⟨more, joined, followed⟩ := joinNames_cons first fits
  have short := joinNames_length (by decide : ([] : Bytes).length < 255) offer.names
  have stored : byteAt (storeAlpn (List.replicate 256 0) (joinNames [] offer.names)) 0 =
      if more = [] then 0 else c := by
    rw [joined] at short ⊢
    exact storeAlpn_first comma (by rw [length_replicate]; omega)
  constructor
  · intro follows
    rw [if_neg (followed.mpr follows)] at stored
    rw [alpnFirst, stored]
  · intro alone
    rw [if_pos (not_not.mp (mt followed.mp alone))] at stored
    rw [alpnFirst, stored]
    rfl

/-- A first name that does not fit leaves no names at all. -/
lemma alpn_none (long : 253 < offer.first.length) :
    alpnFirst offer.names = 0x30 ∧ alpnOriginalLast (joinNames [] offer.names) = 0x30 := by
  have joined : joinNames [] offer.names = [] := by
    rw [AlpnOffer.names, joinNames, if_neg (by rw [length_nil]; omega)]
  have stored : byteAt (storeAlpn (List.replicate 256 0) []) 0 = 0 := by
    rw [storeAlpn, take_nil]
    exact dashes_first (by decide)
  rw [alpnFirst, joined, stored]
  exact ⟨rfl, rfl⟩

end

/-- The first name is taken, and its first character is neither overwritten nor a NUL; or
the characters are those that stand for none. -/
def AlpnKept (offer : AlpnOffer) : Prop :=
  (offer.first.length ≤ 253 ∧ offer.first.head? ≠ some 0 ∧ Followed offer) ∨
    (offer.first.head? = some 0x30 ∧
      (offer.first.length ≤ 253 ∨ offer.first.getLast? = some 0x30))

/-- The ALPN characters of the fingerprint are the first and the last one of the first name
exactly under this condition. -/
theorem ja4_alpn_iff {env : HelloEnv} {ctx : HelloContext} {flow : HelloFlow} {m : ClientHello}
    (fits : m.Fits ctx.isDtls) {offer : AlpnOffer} {before after : List Extension}
    (extensions : m.extensions = before ++ offer.extension :: after)
    (only : ∀ e ∈ before ++ after, e.id ≠ 16) {ja4 : Ja4}
    (computed : (processClientHello env ctx flow (m.encode ctx.isDtls)).ja4 = some ja4) :
    (ja4.client[8]? = offer.first.head? ∧ ja4.client[9]? = offer.first.getLast?) ↔
      AlpnKept offer := by
  obtain ⟨eighth, ninth⟩ := ja4_alpn fits extensions only computed
  obtain ⟨c, name, first⟩ := exists_cons_of_ne_nil offer.nonempty
  have head : offer.first.head? = some c := by rw [first, head?_cons]
  rw [eighth, ninth, head, AlpnKept, head, some_inj]
  by_cases taken : offer.first.length ≤ 253
  · rw [alpnOriginalLast_offer taken]
    obtain ⟨kept, lost⟩ := alpnFirst_offer first taken
    by_cases followed : Followed offer
    · rw [kept followed]
      by_cases zero : c = 0
      · simp [zero, taken]
      · simp [zero, taken, followed]
    · rw [lost followed]
      simp [taken, followed, eq_comm]
  · obtain ⟨noFirst, noLast⟩ := alpn_none (Nat.lt_of_not_le taken)
    rw [noFirst, noLast]
    simp [taken, eq_comm]

lemma single_short {name : Bytes} (short : name.length < 256) :
    ∀ other ∈ [name], other.length < 256 := by
  intro other member
  rw [mem_singleton.mp member]
  exact short

lemma single_small {name : Bytes} (short : name.length < 256) :
    (encodeNames [name]).length + 2 < 65536 := by
  simp only [encodeNames, flatMap_cons, flatMap_nil, length_append, length_singleton, length_nil]
  omega

/-- A list of one name. -/
def singleOffer (name : Bytes) (nonempty : name ≠ []) (plain : ∀ c ∈ name, c ≠ 0x3B ∧ c ≠ 0x2C)
    (short : name.length < 256) : AlpnOffer :=
  ⟨name, [], nonempty, plain, single_short short, single_small short⟩

lemma http2_plain : ∀ c ∈ ([0x68, 0x32] : Bytes), c ≠ 0x3B ∧ c ≠ 0x2C := by simp

lemma letter_plain : ∀ c ∈ ([0x68] : Bytes), c ≠ 0x3B ∧ c ≠ 0x2C := by simp

lemma http2_short : ([0x68, 0x32] : Bytes).length < 256 := by decide

lemma letter_short : ([0x68] : Bytes).length < 256 := by decide

/-- The name `h2`. -/
def http2Offer : AlpnOffer :=
  singleOffer [0x68, 0x32] (List.cons_ne_nil _ _) http2_plain http2_short

/-- The name `h`. -/
def letterOffer : AlpnOffer := singleOffer [0x68] (List.cons_ne_nil _ _) letter_plain letter_short

def http2Hello : ClientHello := sampleHello 53 [0x1301, 0xC02F] [http2Offer.extension]

def letterHello : ClientHello := sampleHello 52 [0x1301, 0xC02F] [letterOffer.extension]

theorem http2Hello_alpn :
    http2Hello.Fits tcpContext.isDtls ∧
      ∃ ja4, (processClientHello sampleEnv tcpContext sampleFlow
          (http2Hello.encode tcpContext.isDtls)).ja4 = some ja4 ∧
        ja4.client[8]? = some 0x68 ∧ ja4.client[9]? = some 0x32 := by
  have fits : http2Hello.Fits tcpContext.isDtls := ⟨by decide +kernel, by decide +kernel⟩
  have computes : (processClientHello sampleEnv tcpContext sampleFlow
      (http2Hello.encode tcpContext.isDtls)).ja4.isSome = true := by decide +kernel
  obtain ⟨ja4, computed⟩ := isSome_iff_exists.mp computes
  have extensions : http2Hello.extensions = [] ++ http2Offer.extension :: [] := rfl
  exact ⟨fits, ja4, computed, (ja4_alpn_iff fits extensions (by simp) computed).mpr
    (.inl ⟨by decide, by decide, .inl (by decide)⟩)⟩

/-- The only character of the text is overwritten, and the fingerprint says that there is
none. -/
theorem letterHello_first_lost :
    letterHello.Fits tcpContext.isDtls ∧
      letterHello.extensions = [letterOffer.extension] ∧ letterOffer.first = [0x68] ∧
      (processClientHello sampleEnv tcpContext sampleFlow
          (letterHello.encode tcpContext.isDtls)).ja4.map
        (fun ja4 => (ja4.client[8]?, ja4.client[9]?)) = some (some 0x30, some 0x68) :=
  ⟨⟨by decide +kernel, by decide +kernel⟩, rfl, rfl, by decide +kernel⟩

end Ndpi.Guarantees.Ja4Alpn
