import Ndpi.Lib.Words
import Ndpi.Source.Base64

/-!
# Quick encryption

`ndpi_utils.c:4600-4701`: a message is padded to whole blocks, encrypted and written
in base64, with its length in an unsigned 16-bit number. Allocations succeed.
-/
namespace Ndpi.Source.QuickCrypt
open Lib Source.Base64

/-- AES in CBC mode with a zero initialisation vector, in place, under the key that
`ndpi_hex2bin` reads from the 64 characters given. Decryption inverts encryption on
whole blocks. -/
structure Cipher where
  encrypt : Bytes → Bytes → Bytes
  decrypt : Bytes → Bytes → Bytes
  encrypt_length : ∀ key buf, (encrypt key buf).length = buf.length
  decrypt_length : ∀ key buf, (decrypt key buf).length = buf.length
  decrypt_encrypt : ∀ key buf, buf.length % 16 = 0 → decrypt key (encrypt key buf) = buf

/-- A message of a length that `cleartext_msg_len` can hold. -/
structure Message where
  bytes : Bytes
  short : bytes.length < 65536

/-- The message with its padding. -/
def padded (cleartextMsg : Bytes) : Bytes :=
  let encodedLen := cleartextMsg.length + 16 - cleartextMsg.length % 16
  let nPadding := encodedLen - cleartextMsg.length
  cleartextMsg ++ List.replicate nPadding (UInt8.ofNat nPadding)

/-- `ndpi_quick_encrypt`: the text and `encrypted_msg_len`. -/
def quickEncrypt (cipher : Cipher) (msg : Message) (encryptKey : Bytes) : Bytes × Nat :=
  let encoded := base64Encode (cipher.encrypt encryptKey (padded msg.bytes))
  (encoded, wrap16 encoded.length)

/-- A `char` turned into an unsigned 32-bit number. -/
def charToUint (c : UInt8) : Nat := if c < 128 then c.toNat else 4294967040 + c.toNat

/-- `ndpi_quick_decrypt`: the message and `decrypted_msg_len`. -/
def quickDecrypt (cipher : Cipher) (encryptedMsg : Bytes) (encryptedMsgLen : Nat)
    (decryptKey : Bytes) : Option (Bytes × Nat) :=
  let allocatedDecodedString := encryptedMsgLen + 8
  match base64Decode (encryptedMsg.take encryptedMsgLen) with
  | none => none
  | some content =>
    if content.length = 0 then none
    else if allocatedDecodedString < content.length + 1 then none
    else
      let decodedString := cipher.decrypt decryptKey content
      let nPadding := charToUint (decodedString[content.length - 1]?.getD 0)
      let contentLen :=
        if content.length > nPadding then content.length - nPadding else content.length
      some (decodedString.take contentLen, wrap16 contentLen)

end Ndpi.Source.QuickCrypt
