import Ndpi.Guarantees.SshHash

/-!
# The negotiated key exchange method

`concat_hash_string` takes the first name of the client that occurs anywhere in the string
of the server, be it as a part of a longer name. A name of more than 63 bytes is cut off and
is the last one that is looked at.
-/
namespace Ndpi.Guarantees.SshKeyExchange
open Lib Lib.CString Source.Ssh Guarantees.SshHash List Option Scan

/-- A list of names; the text has commas between them. -/
structure NameList where
  names : List Bytes
  proper : ∀ name ∈ names, name ≠ [] ∧ 44 ∉ name ∧ 0 ∉ name

def csv (names : List Bytes) : Bytes := [44].intercalate names

section

variable {server name : Bytes} {rest : List Bytes}

/-- The loop goes on behind a comma only. -/
def afterComma (server : Bytes) : Bytes → Option Bytes
  | 44 :: rest => negotiatedMethod server rest
  | _ => none

lemma negotiatedMethod_step (some : csvString ≠ [])
    (length : min 63 (csvString.takeWhile (· ≠ 44)).length = len) :
    negotiatedMethod server csvString =
      if csvString.take len <:+: server then .some (csvString.take len)
      else afterComma server (csvString.drop len) := by
  rw [negotiatedMethod, if_neg some]
  rw [length]
  by_cases found : csvString.take len <:+: server
  · rw [if_pos (strstr_iff.mpr found), if_pos found]
  · rw [if_neg (fun other => found (strstr_iff.mp other)), if_neg found]
    split
    · next rest next => rw [next, afterComma]
    · next other =>
      unfold afterComma
      split
      · next rest next => exact absurd next (other rest)
      · rfl

lemma negotiatedMethod_nil : negotiatedMethod server (csv []) = none := by
  rw [negotiatedMethod]
  rfl

lemma csv_cons (name : Bytes) (rest : List Bytes) :
    csv (name :: rest) = name ++ if rest = [] then [] else 44 :: csv rest := by
  unfold csv
  split
  · next last => rw [last, intercalate_singleton, append_nil]
  · next more =>
    rw [intercalate_cons_of_ne_nil more, append_assoc]
    rfl

/-- The first name of the string, up to the comma. -/
lemma takeWhile_csv (plain : 44 ∉ name) : (csv (name :: rest)).takeWhile (· ≠ 44) = name := by
  rw [csv_cons]
  split
  · rw [append_nil]
    exact takeWhile_ne_of_notMem plain
  · exact takeWhile_ne_append plain _

lemma csv_ne_nil (some : name ≠ []) : csv (name :: rest) ≠ [] := by
  rw [csv_cons]
  exact append_ne_nil_of_left_ne_nil some _

lemma negotiatedMethod_short (some : name ≠ []) (plain : 44 ∉ name) (short : name.length ≤ 63) :
    negotiatedMethod server (csv (name :: rest)) =
      if name <:+: server then .some name else negotiatedMethod server (csv rest) := by
  have length : min 63 ((csv (name :: rest)).takeWhile (· ≠ 44)).length = name.length := by
    rw [takeWhile_csv plain]
    exact min_eq_right short
  rw [negotiatedMethod_step (csv_ne_nil some) length, csv_cons, take_left, drop_left]
  congr 1
  split
  · next last =>
    rw [last, negotiatedMethod_nil]
    rfl
  · rfl

lemma negotiatedMethod_long (plain : 44 ∉ name) (long : 63 < name.length) :
    negotiatedMethod server (csv (name :: rest)) =
      if name.take 63 <:+: server then some (name.take 63) else none := by
  have length : min 63 ((csv (name :: rest)).takeWhile (· ≠ 44)).length = 63 := by
    rw [takeWhile_csv plain]
    exact min_eq_left (le_of_lt long)
  have nonempty : name ≠ [] := ne_nil_of_length_pos (by omega)
  rw [negotiatedMethod_step (csv_ne_nil nonempty) length, csv_cons,
    take_append_of_le_length (le_of_lt long),
    drop_append_of_le_length (le_of_lt long)]
  congr 1
  -- The cut is inside the name, so that no comma follows.
  obtain ⟨b, more, inner⟩ := exists_cons_of_length_pos (by rw [length_drop]; omega :
    0 < (name.drop 63).length)
  have other : b ≠ 44 := by
    rintro rfl
    exact plain (mem_of_mem_drop (inner ▸ mem_cons_self))
  rw [inner, cons_append]
  unfold afterComma
  split
  · next next => exact absurd (List.cons.inj next).1 other
  · rfl

end

/-- The first name of the client that is an element of the list of the server. -/
def sharedName (client server : List Bytes) : Option Bytes := client.find? (· ∈ server)

/-- When the loop finds the shared name. The first name of the client that occurs in the string
of the server or has more than 63 bytes decides: without the latter it has to be an element
itself; a longer one must not be an element, and what is left of it must be what the
other names of the client share with the server. -/
def Decided (server : List Bytes) : List Bytes → Prop
  | [] => True
  | name :: rest =>
    if name.length ≤ 63 then
      if name <:+: csv server then name ∈ server else Decided server rest
    else name ∉ server ∧
      sharedName rest server = if name.take 63 <:+: csv server then some (name.take 63) else none

variable {name : Bytes}

lemma infix_csv (member : name ∈ names) : name <:+: csv names := by
  induction names with
  | nil => cases member
  | cons first rest ih =>
    rw [csv_cons]
    rcases mem_cons.mp member with rfl | later
    · exact (prefix_append _ _).isInfix
    · rw [if_neg (ne_nil_of_mem later)]
      exact (ih later).trans ((suffix_cons _ _).trans (suffix_append _ _)).isInfix

variable {rest server : List Bytes}

lemma sharedName_cons_of_mem (member : name ∈ server) :
    sharedName (name :: rest) server = some name :=
  find?_cons_of_pos (decide_eq_true member)

lemma sharedName_cons_of_notMem (absent : name ∉ server) :
    sharedName (name :: rest) server = sharedName rest server :=
  find?_cons_of_neg (by simpa using absent)

lemma sharedName_mem {server : List Bytes} (found : sharedName client server = some name) :
    name ∈ server := by
  simpa using find?_some found

lemma negotiatedMethod_iff {server : List Bytes}
    (proper : ∀ name ∈ client, name ≠ [] ∧ 44 ∉ name ∧ 0 ∉ name) :
    negotiatedMethod (csv server) (csv client) = sharedName client server ↔
      Decided server client := by
  induction client with
  | nil =>
    rw [negotiatedMethod_nil]
    exact iff_of_true rfl trivial
  | cons name rest ih =>
    obtain ⟨nonempty, plain, -⟩ := proper name mem_cons_self
    have later := ih fun other member => proper other (mem_cons_of_mem _ member)
    rw [Decided]
    split
    · next short =>
      rw [negotiatedMethod_short nonempty plain short]
      by_cases found : name <:+: csv server
      · rw [if_pos found, if_pos found]
        constructor
        · intro same
          exact sharedName_mem same.symm
        · intro member
          rw [sharedName_cons_of_mem member]
      · have absent : name ∉ server := fun member => found (infix_csv member)
        rw [if_neg found, if_neg found, sharedName_cons_of_notMem absent]
        exact later
    · rw [negotiatedMethod_long plain (by omega)]
      by_cases member : name ∈ server
      · refine iff_of_false ?_ fun both => both.1 member
        rw [sharedName_cons_of_mem member]
        intro same
        split at same
        · have length := congrArg List.length (Option.some.inj same)
          rw [length_take] at length
          omega
        · cases same
      · rw [sharedName_cons_of_notMem member, eq_comm]
        exact ⟨fun same => ⟨member, same⟩, fun both => both.2⟩

section

/-- The flow without the risks, which the ciphers may add to. -/
def exchange (flow : SshFlow) : SshFlow := { flow with risks := [] }

lemma exchange_sshAnalyseCipher (flow : SshFlow) :
    exchange (sshAnalyseCipher ciphers isClient flow) = exchange flow := by
  unfold sshAnalyseCipher
  dsimp only
  split <;> rfl

lemma exchange_keyExchangeData :
    exchange (keyExchangeData clientHash algorithms flow) =
      keyExchangeData clientHash algorithms (exchange flow) := by
  obtain ⟨client, server, method, risks⟩ := flow
  cases clientHash <;> cases client <;> cases server <;> rfl

def stateOf : Parsed → HashState
  | .valid s => s
  | .invalid s => s

/-- A part of the walk that comes to an end leaves the key exchange as it is. -/
def Keeps (x : Scan Parsed) (flow : SshFlow) : Prop :=
  ∀ parsed, x.val = some parsed → exchange (stateOf parsed).flow = exchange flow

lemma keeps_pure (same : exchange (stateOf parsed).flow = exchange flow) :
    Keeps (pure parsed) flow := by
  intro other value
  obtain rfl := Option.some.inj value
  exact same

lemma keeps_bind {α : Type} {x : Scan α} {f : α → Scan Parsed}
    (rest : ∀ a, x.val = some a → Keeps (f a) flow) : Keeps (x >>= f) flow := by
  intro parsed value
  rw [bind_val] at value
  obtain ⟨a, first, second⟩ := bind_eq_some_iff.mp value
  exact rest a first parsed second

lemma keeps_andThen {x : Scan Parsed} {f : HashState → Scan Parsed}
    (first : Keeps x flow) (rest : ∀ s, exchange s.flow = exchange flow → Keeps (f s) flow) :
    Keeps (Parsed.andThen x f) flow := by
  refine keeps_bind fun parsed value => ?_
  have same := first parsed value
  cases parsed with
  | valid s => exact rest s same
  | invalid s => exact keeps_pure same

variable {payload : Bytes} {flow : SshFlow} {s : HashState}

lemma skipList_flow (s : HashState) : (stateOf (skipList len s)).flow = s.flow := by
  unfold skipList
  split <;> rfl

lemma appendText_flow (s : HashState) : (appendText separator text s).flow = s.flow := by
  unfold appendText
  split <;> rfl

lemma keeps_skippedList (same : exchange s.flow = exchange flow) :
    Keeps (skippedList payload s) flow := by
  unfold skippedList
  split
  · exact keeps_pure same
  · refine keeps_bind fun len _ => keeps_pure ?_
    rw [skipList_flow]
    exact same

lemma keeps_copiedList {clientHash ciphers separator : Bool}
    (same : exchange s.flow = exchange flow) :
    Keeps (copiedList payload clientHash ciphers separator s) flow := by
  unfold copiedList
  split
  · exact keeps_pure same
  refine keeps_bind fun len _ => ?_
  dsimp only
  split
  · exact keeps_pure same
  refine keeps_bind fun text _ => keeps_bind fun after analysed => keeps_pure ?_
  rw [skipList_flow, appendText_flow]
  unfold analyseList at analysed
  split at analysed
  · obtain rfl := Option.some.inj analysed
    rw [exchange_sshAnalyseCipher]
    exact same
  · obtain rfl := Option.some.inj analysed
    exact same

lemma keeps_directedList (same : exchange s.flow = exchange flow) :
    Keeps (directedList payload clientHash toServer ciphers separator s) flow := by
  unfold directedList
  split
  · exact keeps_copiedList same
  · exact keeps_skippedList same

lemma keeps_hashLists {s : HashState} : Keeps (hashLists payload clientHash s) s.flow := by
  unfold hashLists
  iterate 6 refine keeps_andThen ?_ fun t => keeps_directedList
  exact keeps_skippedList rfl

end

/-- What the data of a message leave of a flow. -/
def exchanged (cfg : Config) (fromClient : Bool) (algorithms : Bytes) (flow : SshFlow) : SshFlow :=
  if cfg.sshHasshDataEnabled then keyExchangeData fromClient algorithms flow else flow

/-- The string in the buffer is the list of the message. -/
lemma storeData_flow {rest : Bytes} (cfg : Config) (clientHash : Bool)
    (reached : Reached payload rest text s) (more : rest ≠ []) (plain : 0 ∉ text) :
    (storeData cfg clientHash s).flow = exchanged cfg clientHash text s.flow := by
  have inside : s.bufOutLen < s.buf.cells.length := by
    rw [reached.room]
    exact reached.inside more
  have terminated : cString (s.buf.store s.bufOutLen 0).cells = text := by
    rw [Memory.store_inside _ _ _ inside]
    rw [set_eq_take_append_cons_drop, if_pos inside]
    have wrote : s.buf.cells.take s.bufOutLen = text := reached.wrote
    rw [wrote]
    exact cString_append plain _
  unfold storeData exchanged
  split
  · dsimp only
    rw [terminated]
  · rfl

lemma concatHashString_exchange {cfg : Config} {k : Kexinit} {clientHash : Bool} {buf : Memory}
    (short : k.encode.length < 65536) (room : buf.cells.length = k.encode.length)
    (clean : buf.stray = []) {result : Nat × Memory × SshFlow}
    (value : (concatHashString cfg k.encode clientHash buf flow).val = some result) :
    exchange result.2.2 = exchange (exchanged cfg clientHash k.kex flow) := by
  obtain ⟨-, parsed, first, s, rfl, reached, -, same⟩ := kexAlgorithms_encode short room clean
  unfold concatHashString at value
  rw [bind_val, first, bind_some] at value
  dsimp only at value
  have data := storeData_flow cfg clientHash reached (nameString_append_ne_nil _ _)
    (k.plain _ mem_cons_self)
  rw [same] at data
  split at value
  · rw [bind_val] at value
    obtain ⟨lists, walked, value⟩ := bind_eq_some_iff.mp value
    have kept := keeps_hashLists lists walked
    have here : (putSeparator (storeData cfg clientHash s)).flow =
        exchanged cfg clientHash k.kex flow := data
    rw [here] at kept
    cases lists with
    | valid t =>
      obtain rfl := Option.some.inj value
      exact kept
    | invalid t =>
      obtain rfl := Option.some.inj value
      exact kept
  · obtain rfl := Option.some.inj value
    rw [← data]

/-- The branch for key exchange messages comes to an end, and the flow has the data of the
message. -/
lemma searchKeyExchange_kexinit {cfg : Config} {k : Kexinit} {fromClient : Bool}
    (short : k.encode.length < 65536) :
    ∃ hashed after, (searchKeyExchange cfg k.encode fromClient flow).val = some (hashed, after) ∧
      exchange after = exchange (exchanged cfg fromClient k.kex flow) := by
  have code : (Scan.byte k.encode 5).val = some 20 := by
    rw [byte_val, k.code_encode]
    rfl
  have room : (⟨List.replicate k.encode.length 0, []⟩ : Memory).cells.length = k.encode.length :=
    length_replicate
  obtain ⟨-, result, value, -⟩ :=
    concatHashString_contained k.encode_long cfg fromClient flow room rfl
  have same := concatHashString_exchange short room rfl value
  unfold searchKeyExchange
  rw [if_pos k.encode_long, bind_val, code, bind_some]
  split
  · rw [bind_val, value, bind_some]
    exact ⟨_, _, rfl, same⟩
  · next disabled =>
    refine ⟨_, _, rfl, ?_⟩
    have off : cfg.sshHasshDataEnabled = false := by
      by_contra on
      exact disabled ⟨rfl, .inr (by simpa using on)⟩
    rw [exchanged, off]
    rfl

/-- The flow after a message of each side, in either order. -/
def afterBoth (cfg : Config) (client server : Kexinit) (clientFirst : Bool) : Option SshFlow :=
  if clientFirst then do
    let first ← (searchKeyExchange cfg client.encode true emptyFlow).val
    let second ← (searchKeyExchange cfg server.encode false first.2).val
    some second.2
  else do
    let first ← (searchKeyExchange cfg server.encode false emptyFlow).val
    let second ← (searchKeyExchange cfg client.encode true first.2).val
    some second.2

/-- Two messages one after the other. -/
lemma twoMessages (cfg : Config) {first second : Kexinit} (fromClient : Bool)
    (short : first.encode.length < 65536) (short' : second.encode.length < 65536) :
    ∃ one two, (searchKeyExchange cfg first.encode fromClient emptyFlow).val = some one ∧
      (searchKeyExchange cfg second.encode (!fromClient) one.2).val = some two ∧
      exchange two.2 = exchanged cfg (!fromClient) second.kex
        (exchanged cfg fromClient first.kex emptyFlow) := by
  obtain ⟨hashed, after, value, same⟩ := searchKeyExchange_kexinit short
  obtain ⟨hashed', after', value', same'⟩ := searchKeyExchange_kexinit short'
  refine ⟨(hashed, after), (hashed', after'), value, value', ?_⟩
  have commutes (b : Bool) (text : Bytes) (flow : SshFlow) :
      exchange (exchanged cfg b text flow) = exchanged cfg b text (exchange flow) := by
    unfold exchanged
    split
    · exact exchange_keyExchangeData
    · rfl
  rw [same', commutes, same, commutes]
  rfl

/-- The method after both messages: none without the data, else what the loop finds. -/
lemma afterBoth_method {cfg : Config} {client server : Kexinit} {clientFirst : Bool}
    (shortClient : client.encode.length < 65536) (shortServer : server.encode.length < 65536) :
    ∃ flow, afterBoth cfg client server clientFirst = some flow ∧
      flow.keyExchangeMethod = if cfg.sshHasshDataEnabled then negotiatedMethod server.kex client.kex
        else none := by
  cases clientFirst with
  | true =>
    obtain ⟨one, two, value, value', same⟩ := twoMessages cfg true shortClient shortServer
    refine ⟨two.2, ?_, ?_⟩
    · simp only [afterBoth, if_true, value, bind_eq_bind, bind_some]
      rw [show (false : Bool) = !true from rfl, value', bind_some]
    · have method : two.2.keyExchangeMethod = (exchange two.2).keyExchangeMethod := rfl
      rw [method, same]
      cases cfg with
      | mk data fingerprint => cases data <;> simp [exchanged, keyExchangeData, emptyFlow]
  | false =>
    obtain ⟨one, two, value, value', same⟩ := twoMessages cfg false shortServer shortClient
    refine ⟨two.2, ?_, ?_⟩
    · simp only [afterBoth, value, bind_eq_bind, bind_some]
      rw [show (true : Bool) = !false from rfl, value', bind_some]
      rfl
    · have method : two.2.keyExchangeMethod = (exchange two.2).keyExchangeMethod := rfl
      rw [method, same]
      cases cfg with
      | mk data fingerprint => cases data <;> simp [exchanged, keyExchangeData, emptyFlow]

/-- After the messages of a client and of a server, in either order, the method of the flow is
the first name that the lists share exactly under this condition on the lists. -/
theorem keyExchangeMethod_iff (cfg : Config) (client server : Kexinit) (clientFirst : Bool)
    (clientList serverList : NameList) (clientKex : client.kex = csv clientList.names)
    (serverKex : server.kex = csv serverList.names)
    (shortClient : client.encode.length < 65536) (shortServer : server.encode.length < 65536) :
    ∃ flow, afterBoth cfg client server clientFirst = some flow ∧
      (flow.keyExchangeMethod = sharedName clientList.names serverList.names ↔
        if cfg.sshHasshDataEnabled then Decided serverList.names clientList.names
        else ∀ name ∈ clientList.names, name ∉ serverList.names) := by
  obtain ⟨flow, value, method⟩ := afterBoth_method shortClient shortServer
  refine ⟨flow, value, ?_⟩
  rw [method, clientKex, serverKex]
  split
  · exact negotiatedMethod_iff clientList.proper
  · rw [eq_comm]
    simp [sharedName]

/-- The lists of a message like the small one, with another list of key exchange algorithms. -/
lemma otherKex_plain (plain : 0 ∉ kex) : ∀ text ∈ kex :: smallLists.tail, 0 ∉ text := by
  intro text member
  rcases mem_cons.mp member with rfl | other
  · exact plain
  · exact smallLists_plain text (mem_of_mem_tail other)

def curve25519 : Bytes := ascii "curve25519-sha256"

def curve25519Libssh : Bytes := ascii "curve25519-sha256@libssh.org"

lemma curve25519_plain : 0 ∉ curve25519 := by decide

lemma curve25519Libssh_plain : 0 ∉ curve25519Libssh := by decide

/-- The second name of the client is the first one of the server. -/
def clientNames : List Bytes := [curve25519Libssh, curve25519]

def serverNames : List Bytes := [curve25519, [107]]

def namesClient : Kexinit :=
  { smallKexinit with kex := csv clientNames, plain := otherKex_plain (by decide) }

def namesServer : Kexinit :=
  { smallKexinit with kex := csv serverNames, plain := otherKex_plain (by decide) }

theorem keyExchangeMethod_small :
    ∃ flow, afterBoth ⟨true, true⟩ namesClient namesServer true = some flow ∧
      flow.keyExchangeMethod = some curve25519 := by
  obtain ⟨flow, value, method⟩ := keyExchangeMethod_iff ⟨true, true⟩ namesClient namesServer true
    ⟨clientNames, by decide⟩ ⟨serverNames, by decide⟩ rfl rfl
    (by decide +kernel) (by decide +kernel)
  have shared : sharedName clientNames serverNames = some curve25519 := by decide +kernel
  refine ⟨flow, value, (method.mpr ?_).trans shared⟩
  simp only [clientNames, Decided]
  decide

def curveClient : Kexinit :=
  { smallKexinit with kex := curve25519, plain := otherKex_plain curve25519_plain }

def curveServer : Kexinit :=
  { smallKexinit with kex := curve25519Libssh, plain := otherKex_plain curve25519Libssh_plain }

/-- The only name of the client is the start of the only name of the server. -/
theorem curve25519_not_shared :
    sharedName [curve25519] [curve25519Libssh] = none ∧
    (afterBoth ⟨true, true⟩ curveClient curveServer true).map (·.keyExchangeMethod) =
      some (some curve25519) := by
  decide +kernel

end Ndpi.Guarantees.SshKeyExchange
