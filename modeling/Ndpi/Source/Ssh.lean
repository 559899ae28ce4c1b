import Ndpi.Lib.CString
import Ndpi.Lib.Scan
import Ndpi.Lib.Words

/-!
# Key exchange messages of SSH

`protocols/ssh.c:122-185,218-430,495-560`. Texts are C strings; allocations succeed.
Offsets stay far below 2^32: every length that is added to one is below the payload's
or at most `len_max`.
-/
namespace Ndpi.Source.Ssh
open Lib Lib.CString

structure Config where
  sshHasshDataEnabled : Bool
  sshHasshFingerprintEnabled : Bool

inductive Risk where
  | sshObsoleteClientVersionOrCipher | sshObsoleteServerVersionOrCipher
  deriving DecidableEq, Repr

/-- The strings of `protos.ssh` that key exchange messages set, with the risks of the flow. -/
structure SshFlow where
  clientKeyExchangeAlgorithms : Option Bytes
  serverKeyExchangeAlgorithms : Option Bytes
  keyExchangeMethod : Option Bytes
  risks : List (Risk × Bytes)
  deriving DecidableEq, Repr

def obsoleteCiphers : List Bytes :=
  [ascii "arcfour256", ascii "arcfour128", ascii "3des-cbc", ascii "blowfish-cbc",
    ascii "cast128-cbc", ascii "arcfour"]

/-- The loop over the table: it assigns the position of the cipher, if it finds one. -/
def searchTable (cipher : Bytes) (foundObsoleteCipher : Nat) : Nat :=
  (obsoleteCiphers.idxOf? cipher).getD foundObsoleteCipher

/-- The loop over the tokens. -/
def searchCiphers : List Bytes → Nat → Nat
  | [], found => found
  | cipher :: rest, found =>
    if found ≠ 0 then found else searchCiphers rest (searchTable cipher found)

/-- `ssh_analyse_cipher` on these `cipher_len` bytes. -/
def sshAnalyseCipher (ciphers : Bytes) (isClientSignature : Bool) (flow : SshFlow) : SshFlow :=
  let cipherCopy := strncpy ciphers ciphers.length ++ [0]
  let found := searchCiphers (tokens 44 (cString cipherCopy)) 0
  if found ≠ 0 then
    let text := (ascii "Found cipher " ++ obsoleteCiphers.getD found []).take 63
    let risk := if isClientSignature then .sshObsoleteClientVersionOrCipher
      else .sshObsoleteServerVersionOrCipher
    { flow with risks := flow.risks ++ [(risk, text)] }
  else flow

/-- The loop over the names of the client: the first one that `strstr` finds in the string of
the server. A name is cut off after 63 bytes, and then the loop ends. -/
def negotiatedMethod (server : Bytes) (csvString : Bytes) : Option Bytes :=
  if csvString = [] then none
  else
    let len := min 63 (csvString.takeWhile (· ≠ 44)).length
    let buf := csvString.take len
    if strstr server buf then some buf
    else
      match _next : csvString.drop len with
      | 44 :: rest => negotiatedMethod server rest
      | _ => none
termination_by csvString.length
decreasing_by
  have shorter := congrArg List.length _next
  rw [List.length_drop, List.length_cons] at shorter
  omega

/-- What the string in the buffer leaves in the flow. -/
def keyExchangeData (clientHash : Bool) (algorithms : Bytes) (flow : SshFlow) : SshFlow :=
  let flow := if clientHash then
      { flow with
        clientKeyExchangeAlgorithms := flow.clientKeyExchangeAlgorithms.or (some algorithms) }
    else
      { flow with
        serverKeyExchangeAlgorithms := flow.serverKeyExchangeAlgorithms.or (some algorithms) }
  match flow.clientKeyExchangeAlgorithms, flow.serverKeyExchangeAlgorithms with
  | some client, some server =>
    { flow with keyExchangeMethod := (negotiatedMethod server client).or flow.keyExchangeMethod }
  | _, _ => flow

/-- The variables of `concat_hash_string`, with what it writes to. -/
structure HashState where
  offset : Nat
  buf : Memory
  bufOutLen : Nat
  flow : SshFlow

/-- Whether a part went through or jumped to `invalid_payload`. -/
inductive Parsed where
  | valid (s : HashState)
  | invalid (s : HashState)

def Parsed.andThen (x : Scan Parsed) (f : HashState → Scan Parsed) : Scan Parsed := do
  let parsed ← x
  match parsed with
  | .valid s => f s
  | .invalid s => pure (.invalid s)

section

variable (cfg : Config) (payload : Bytes) (clientHash : Bool)

def maxPayloadLen : Nat := sub32 payload.length 4

def lenMax : Nat := 65565

/-- `strncpy` from the payload. -/
def copyText (offset len : Nat) : Scan Bytes :=
  ⟨some (strncpy (payload.drop offset) len),
    (List.range (strncpyReads (payload.drop offset) len)).map (offset + ·)⟩

/-- The test before a text is copied. -/
def TooLong (offset len : Nat) : Prop :=
  offset ≥ payload.length ∨ len ≥ sub32 (sub32 payload.length offset) 1

instance (offset len : Nat) : Decidable (TooLong payload offset len) :=
  inferInstanceAs (Decidable (_ ∨ _))

/-- The list of key exchange algorithms. -/
def kexAlgorithms (s : HashState) : Scan Parsed :=
  if s.offset ≥ maxPayloadLen payload then pure (.invalid s)
  else do
    let len ← Scan.be32 payload s.offset
    let offset := s.offset + 4
    if TooLong payload offset len then pure (.invalid { s with offset := offset })
    else do
      let text ← copyText payload offset len
      pure (.valid { s with
        offset := offset + len, buf := s.buf.storeAll 0 text, bufOutLen := len })

/-- The string is terminated in the buffer and used for the metadata. -/
def storeData (s : HashState) : HashState :=
  if cfg.sshHasshDataEnabled then
    let buf := s.buf.store s.bufOutLen 0
    { s with buf := buf, flow := keyExchangeData clientHash (cString buf.cells) s.flow }
  else s

def putSeparator (s : HashState) : HashState :=
  { s with buf := s.buf.store s.bufOutLen 59, bufOutLen := s.bufOutLen + 1 }

/-- Behind a list of this length. -/
def skipList (len : Nat) (s : HashState) : Parsed :=
  if len > lenMax then .invalid s else .valid { s with offset := s.offset + len }

/-- A list that the hash string leaves out. -/
def skippedList (s : HashState) : Scan Parsed :=
  if s.offset ≥ maxPayloadLen payload then pure (.invalid s)
  else do
    let len ← Scan.be32 payload s.offset
    pure (skipList len { s with offset := s.offset + 4 })

/-- `ssh_analyse_cipher` on a list of ciphers, which it copies from the payload. -/
def analyseList (ciphers : Bool) (offset len : Nat) (flow : SshFlow) : Scan SshFlow :=
  if ciphers then do
    let _ ← copyText payload offset len
    pure (sshAnalyseCipher ((payload.drop offset).take len) clientHash flow)
  else pure flow

def appendText (separator : Bool) (text : Bytes) (s : HashState) : HashState :=
  let s := { s with
    buf := s.buf.storeAll s.bufOutLen text, bufOutLen := s.bufOutLen + text.length }
  if separator then putSeparator s else s

/-- A list that goes into the hash string. -/
def copiedList (ciphers separator : Bool) (s : HashState) : Scan Parsed :=
  if s.offset ≥ maxPayloadLen payload then pure (.invalid s)
  else do
    let len ← Scan.be32 payload s.offset
    let offset := s.offset + 4
    if TooLong payload offset len then pure (.invalid { s with offset := offset })
    else do
      let text ← copyText payload offset len
      let flow ← analyseList payload clientHash ciphers offset len s.flow
      pure (skipList len (appendText separator text { s with offset := offset, flow := flow }))

/-- The list of one direction, copied if it is the direction of the message. -/
def directedList (toServer ciphers separator : Bool) (s : HashState) : Scan Parsed :=
  if clientHash = toServer then copiedList payload clientHash ciphers separator s
  else skippedList payload s

/-- The lists behind the key exchange algorithms. -/
def hashLists (s : HashState) : Scan Parsed :=
  let serverHostKey := skippedList payload s
  let encryptionToServer :=
    Parsed.andThen serverHostKey (directedList payload clientHash true true true)
  let encryptionToClient :=
    Parsed.andThen encryptionToServer (directedList payload clientHash false true true)
  let macToServer := Parsed.andThen encryptionToClient (directedList payload clientHash true false true)
  let macToClient := Parsed.andThen macToServer (directedList payload clientHash false false true)
  let compressionToServer :=
    Parsed.andThen macToClient (directedList payload clientHash true false false)
  Parsed.andThen compressionToServer (directedList payload clientHash false false false)

/-- The result, the buffer and the flow afterwards. -/
def concatHashString (buf : Memory) (flow : SshFlow) : Scan (Nat × Memory × SshFlow) := do
  let kex ← kexAlgorithms payload ⟨22, buf, 0, flow⟩
  match kex with
  | .invalid s => pure (0, s.buf, s.flow)
  | .valid s =>
    let s := storeData cfg clientHash s
    if cfg.sshHasshFingerprintEnabled then do
      let lists ← hashLists payload clientHash (putSeparator s)
      match lists with
      | .invalid s => pure (0, s.buf, s.flow)
      | .valid s => pure (wrap16 s.bufOutLen, s.buf, s.flow)
    else pure (0, s.buf, s.flow)

end

/-- The branch of `ndpi_search_ssh_tcp` behind the banners: the string whose MD5 is the
fingerprint, if there is one, and the flow. -/
def searchKeyExchange (cfg : Config) (payload : Bytes) (fromClient : Bool) (flow : SshFlow) :
    Scan (Option Bytes × SshFlow) :=
  if payload.length > 5 then do
    let msgcode ← Scan.byte payload 5
    if msgcode = 20 ∧ (cfg.sshHasshFingerprintEnabled ∨ cfg.sshHasshDataEnabled) then do
      let hasshBuf : Memory := ⟨List.replicate payload.length 0, []⟩
      let (len, buf, flow) ← concatHashString cfg payload fromClient hasshBuf flow
      pure (if cfg.sshHasshFingerprintEnabled then some (buf.cells.take len) else none, flow)
    else pure (none, flow)
  else pure (none, flow)

end Ndpi.Source.Ssh
