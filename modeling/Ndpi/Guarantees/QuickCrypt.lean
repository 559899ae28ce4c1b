import Ndpi.Source.QuickCrypt

/-!
# Decrypting what was encrypted

Base64 decoding inverts encoding. A message comes back exactly if it is not empty and
its text is not longer than the unsigned 16-bit length can say: a block that is
padding throughout is not removed, and the length of a longer text wraps around.
-/
namespace Ndpi.Guarantees.QuickCrypt
open Lib Source.Base64 Source.QuickCrypt List

section

variable {i : Nat}

lemma dtable_base64Char (small : i < 64) :
    dtable (base64Char i) = some i ∧ base64Char i ≠ 0x3D := by
  have all : ∀ i : Fin 64, dtable (base64Char i.val) = some i.val ∧ base64Char i.val ≠ 0x3D := by
    decide +kernel
  exact all ⟨i, small⟩

lemma sixBits_lt (a b c : UInt8) :
    a.toNat / 4 < 64 ∧ a.toNat % 4 * 16 + b.toNat / 16 < 64 ∧
      b.toNat % 16 * 4 + c.toNat / 64 < 64 ∧ c.toNat % 64 < 64 := by
  have ha := a.toNat_lt
  have hb := b.toNat_lt
  have hc := c.toNat_lt
  omega

variable {src : Bytes} {out : Bytes} {pad : Nat}

/-- A digit is put into the block. -/
lemma decodeLoop_digit (small : i < 64) (block : List Nat) (room : block.length < 3) :
    decodeLoop (base64Char i :: src) block pad out = decodeLoop src (block ++ [i]) pad out := by
  obtain ⟨digit, plain⟩ := dtable_base64Char small
  rw [decodeLoop, digit]
  simp only [if_neg plain]
  match block, room with
  | [], _ => rfl
  | [_], _ => rfl
  | [_, _], _ => rfl

/-- The padding character is put into the block and counted. -/
lemma decodeLoop_pad (block : List Nat) (room : block.length < 3) :
    decodeLoop (0x3D :: src) block pad out = decodeLoop src (block ++ [0]) (pad + 1) out := by
  rw [decodeLoop]
  simp only [dtable, if_true]
  match block, room with
  | [], _ => rfl
  | [_], _ => rfl
  | [_, _], _ => rfl

lemma blockBytes_sixBits (a b c : UInt8) :
    blockBytes (a.toNat / 4) (a.toNat % 4 * 16 + b.toNat / 16)
      (b.toNat % 16 * 4 + c.toNat / 64) (c.toNat % 64) = [a, b, c] := by
  have ha := a.toNat_lt
  have hb := b.toNat_lt
  have hc := c.toNat_lt
  have truncated (n : Nat) (byte : UInt8) (same : n % 256 = byte.toNat) : UInt8.ofNat n = byte :=
    UInt8.toNat_inj.mp (by rw [UInt8.toNat_ofNat']; exact same)
  unfold blockBytes
  rw [truncated _ a (by omega), truncated _ b (by omega), truncated _ c (by omega)]

/-- The fourth digit completes a block. -/
lemma decodeLoop_complete (small : i < 64) :
    decodeLoop (base64Char i :: src) [b0, b1, b2] 0 out =
      decodeLoop src [] 0 (out ++ blockBytes b0 b1 b2 i) := by
  obtain ⟨digit, plain⟩ := dtable_base64Char small
  rw [decodeLoop, digit]
  simp [if_neg plain]

/-- The last padding character ends the text. -/
lemma decodeLoop_ended (few : pad < 2) :
    decodeLoop (0x3D :: src) [b0, b1, b2] pad out =
      some ((out ++ blockBytes b0 b1 b2 0).take (out.length + 2 - pad)) := by
  rw [decodeLoop]
  simp only [dtable, if_true, if_neg (Nat.succ_ne_zero pad), if_pos (Nat.succ_le_of_lt few)]
  congr 2
  simp only [blockBytes, length_append, length_cons, length_nil]
  omega

lemma decodeLoop_two {i : Nat} (first : i < 64) (second : j < 64) {src out : Bytes} :
    decodeLoop (base64Char i :: base64Char j :: src) [] 0 out = decodeLoop src [i, j] 0 out := by
  rw [decodeLoop_digit first [] (Nat.zero_lt_succ 2)]
  exact decodeLoop_digit second [i] (Nat.lt_succ_of_lt (Nat.lt_succ_self 1))

/-- Decoding inverts encoding. -/
lemma decodeLoop_encode (bytes out : Bytes) :
    decodeLoop (base64Encode bytes) [] 0 out = some (out ++ bytes) := by
  fun_induction base64Encode bytes generalizing out with
  | case1 a b c rest ih =>
    obtain ⟨d0, d1, d2, d3⟩ := sixBits_lt a b c
    apply (decodeLoop_two d0 d1).trans
    apply (decodeLoop_digit d2 [_, _] (Nat.lt_succ_self 2)).trans
    apply (decodeLoop_complete d3).trans
    rw [blockBytes_sixBits]
    apply (ih _).trans
    rw [append_assoc]
    rfl
  | case2 a b =>
    obtain ⟨d0, d1, d2, -⟩ := sixBits_lt a b 0
    apply (decodeLoop_two d0 d1).trans
    apply (decodeLoop_digit d2 [_, _] (Nat.lt_succ_self 2)).trans
    apply (decodeLoop_ended (Nat.zero_lt_succ 1)).trans
    apply congrArg some
    have block := congrArg (fun bytes => (out ++ bytes).take (out.length + 2))
      (blockBytes_sixBits a b 0)
    apply block.trans
    rw [take_length_add_append]
    rfl
  | case3 a =>
    obtain ⟨d0, d1, -, -⟩ := sixBits_lt a 0 0
    apply (decodeLoop_two d0 d1).trans
    apply (decodeLoop_pad [_, _] (Nat.lt_succ_self 2)).trans
    apply (decodeLoop_ended (Nat.lt_succ_self 1)).trans
    apply congrArg some
    have block := congrArg (fun bytes => (out ++ bytes).take (out.length + 1))
      (blockBytes_sixBits a 0 0)
    apply block.trans
    rw [take_length_add_append]
    rfl
  | case4 => simp [decodeLoop]

lemma base64Encode_length :
    (base64Encode bytes).length = (bytes.length + 2) / 3 * 4 := by
  fun_induction base64Encode bytes with
  | case1 a b c rest ih =>
    simp only [sixBits, length_append, length_map, length_cons, length_nil, ih]
    omega
  | case2 a b => simp [sixBits]
  | case3 a => simp [sixBits]
  | case4 => rfl

lemma dtable_isSome_of_mem_sixBits (mem : i ∈ sixBits a b c) :
    (dtable (base64Char i)).isSome = true := by
  have bounds := sixBits_lt a b c
  have small : i < 64 := by
    simp only [sixBits, mem_cons, not_mem_nil, or_false] at mem
    omega
  rw [(dtable_base64Char small).1]
  rfl

/-- The encoder writes characters of the alphabet and padding only. -/
lemma base64Encode_valid :
    ∀ c ∈ base64Encode bytes, (dtable c).isSome = true := by
  have padding : (dtable 0x3D).isSome = true := rfl
  fun_induction base64Encode bytes with
  | case1 a b c rest ih =>
    intro d mem
    rcases mem_append.mp mem with digit | later
    · obtain ⟨i, inside, rfl⟩ := mem_map.mp digit
      exact dtable_isSome_of_mem_sixBits inside
    · exact ih d later
  | case2 a b =>
    intro d mem
    rcases mem_append.mp mem with digit | pad
    · obtain ⟨i, inside, rfl⟩ := mem_map.mp digit
      exact dtable_isSome_of_mem_sixBits (mem_of_mem_take inside)
    · rw [mem_singleton.mp pad]
      exact padding
  | case3 a =>
    intro d mem
    rcases mem_append.mp mem with digit | pad
    · obtain ⟨i, inside, rfl⟩ := mem_map.mp digit
      exact dtable_isSome_of_mem_sixBits (mem_of_mem_take inside)
    · have eq : d = 0x3D := by simpa using pad
      rw [eq]
      exact padding
  | case4 => exact fun d mem => (not_mem_nil mem).elim

lemma base64Decode_encode (given : bytes ≠ []) :
    base64Decode (base64Encode bytes) = some bytes := by
  have positive := length_pos_iff.mpr given
  have count : ((base64Encode bytes).filter fun c => (dtable c).isSome).length =
      (bytes.length + 2) / 3 * 4 := by
    rw [filter_eq_self.mpr base64Encode_valid, base64Encode_length]
  unfold base64Decode
  rw [count, if_neg (by omega), decodeLoop_encode]
  rfl

/-- Encoded bytes decode to themselves. -/
theorem base64_round_trip (x : Bytes) (given : x ≠ []) : base64Decode (base64Encode x) = some x :=
  base64Decode_encode given

theorem base64_round_trip_sample :
    base64Decode (base64Encode [77, 97, 110, 0, 255]) = some [77, 97, 110, 0, 255] :=
  base64_round_trip _ (by decide)

/-- A text decodes to no more bytes than it has. -/
lemma decodeLoop_length {out : Bytes} (decoded : decodeLoop src block pad out = some result) :
    result.length ≤ out.length + block.length + src.length := by
  fun_induction decodeLoop src block pad out with
  | case1 block pad out =>
    cases decoded
    omega
  | case2 c src block pad out skipped ih =>
    have bound := ih decoded
    rw [length_cons]
    omega
  | case3 c src before out' tmp digit pad b0 b1 b2 out unpadded ih =>
    have bound := ih decoded
    simp only [out, blockBytes, length_append, length_cons, length_nil] at bound ⊢
    omega
  | case4 c src before out' tmp digit pad b0 b1 b2 out hasPad few =>
    cases decoded
    simp only [out, blockBytes, length_take, length_append, length_cons, length_nil]
    omega
  | case5 => cases decoded
  | case6 c src block before out tmp digit pad room ih =>
    have bound := ih decoded
    simp only [length_append, length_cons, length_nil] at bound ⊢
    omega

lemma base64Decode_length {src : Bytes} (decoded : base64Decode src = some content) :
    content.length ≤ src.length := by
  dsimp only [base64Decode] at decoded
  split at decoded
  · cases decoded
  · have bound := decodeLoop_length decoded
    simpa using bound

end

lemma padded_eq (msg : Bytes) :
    padded msg = msg ++
      List.replicate (16 - msg.length % 16) (UInt8.ofNat (16 - msg.length % 16)) := by
  have size : msg.length + 16 - msg.length % 16 - msg.length = 16 - msg.length % 16 := by omega
  dsimp only [padded]
  rw [size]

lemma padded_length (msg : Bytes) : (padded msg).length = (msg.length / 16 + 1) * 16 := by
  rw [padded_eq, length_append, length_replicate]
  omega

/-- The last byte says how many bytes were added. -/
lemma padded_last (msg : Bytes) :
    charToUint ((padded msg)[(padded msg).length - 1]?.getD 0) = 16 - msg.length % 16 := by
  have length := padded_length msg
  have last : (padded msg)[(padded msg).length - 1]? =
      some (UInt8.ofNat (16 - msg.length % 16)) := by
    rw [length, padded_eq, getElem?_append_right (by omega), getElem?_replicate, if_pos (by omega)]
  have value : (UInt8.ofNat (16 - msg.length % 16)).toNat = 16 - msg.length % 16 := by
    rw [UInt8.toNat_ofNat']
    omega
  have positive : UInt8.ofNat (16 - msg.length % 16) < 128 := by
    rw [UInt8.lt_iff_toNat_lt, value]
    simp only [UInt8.reduceToNat]
    omega
  rw [last, Option.getD_some, charToUint, if_pos positive, value]

section

variable (cipher : Cipher) (key : Bytes) (msg : Message)

/-- The text that is sent. -/
def sent : Bytes := base64Encode (cipher.encrypt key (padded msg.bytes))

lemma sent_length :
    (sent cipher key msg).length = ((msg.bytes.length / 16 + 1) * 16 + 2) / 3 * 4 := by
  rw [sent, base64Encode_length, cipher.encrypt_length, padded_length]

/-- From the whole text all of the padding is taken off, unless it is a whole block. -/
lemma quickDecrypt_sent :
    quickDecrypt cipher (sent cipher key msg) (sent cipher key msg).length key =
      if msg.bytes.length = 0 then some (padded msg.bytes, 16)
      else some (msg.bytes, msg.bytes.length) := by
  have short := msg.short
  have blocks := padded_length msg.bytes
  have length : (cipher.encrypt key (padded msg.bytes)).length = (padded msg.bytes).length :=
    cipher.encrypt_length key _
  have given : cipher.encrypt key (padded msg.bytes) ≠ [] := ne_nil_of_length_pos (by omega)
  have inverse : cipher.decrypt key (cipher.encrypt key (padded msg.bytes)) = padded msg.bytes :=
    cipher.decrypt_encrypt key _ (by omega)
  have room := sent_length cipher key msg
  dsimp only [quickDecrypt]
  rw [take_length, sent, base64Decode_encode given]
  dsimp only
  rw [← sent, inverse, length, padded_last, if_neg (by omega), if_neg (by omega)]
  by_cases empty : msg.bytes.length = 0
  · rw [if_pos empty, if_neg (by omega), take_length, blocks, empty]
    rfl
  · have rest : (padded msg.bytes).length - (16 - msg.bytes.length % 16) = msg.bytes.length := by
      omega
    rw [if_neg empty, if_pos (by omega), rest, wrap16_of_lt short, padded_eq, take_left']
    rfl

/-- No more is decrypted than the text has characters. -/
lemma quickDecrypt_length_le (decrypted : quickDecrypt cipher text len key = some result) :
    result.2 ≤ len := by
  dsimp only [quickDecrypt] at decrypted
  split at decrypted
  · cases decrypted
  · next content decoded =>
    have bound := base64Decode_length decoded
    rw [length_take] at bound
    split at decrypted
    · cases decrypted
    · split at decrypted
      · cases decrypted
      · cases decrypted
        apply (Nat.mod_le _ _).trans
        split <;> omega

end

/-- A message comes back with its length exactly if it is not empty and shorter than
49136 bytes. -/
theorem quick_crypt_round_trip_iff (cipher : Cipher) (key : Bytes) (msg : Message) :
    quickDecrypt cipher (quickEncrypt cipher msg key).1 (quickEncrypt cipher msg key).2 key =
        some (msg.bytes, msg.bytes.length) ↔
      0 < msg.bytes.length ∧ msg.bytes.length < 49136 := by
  have short := msg.short
  have length := sent_length cipher key msg
  have text : (quickEncrypt cipher msg key).1 = sent cipher key msg := rfl
  have size : (quickEncrypt cipher msg key).2 = wrap16 (sent cipher key msg).length := rfl
  rw [text, size]
  by_cases fits : msg.bytes.length < 49136
  · rw [wrap16_of_lt (by omega), quickDecrypt_sent]
    split
    · next empty =>
      simp [empty]
    · next empty =>
      exact ⟨fun _ => ⟨pos_of_ne_zero empty, fits⟩, fun _ => rfl⟩
  · refine ⟨fun decrypted => ?_, fun both => absurd both.2 fits⟩
    -- The length that is passed on has lost 65536, more than the message can do without.
    have bound := quickDecrypt_length_le cipher key decrypted
    have wraps : (sent cipher key msg).length / 65536 = 1 := by omega
    unfold wrap16 at bound
    omega

/-- A cipher that changes nothing. -/
def plainCipher : Cipher := ⟨fun _ buf => buf, fun _ buf => buf, fun _ _ => rfl, fun _ _ => rfl,
  fun _ _ _ => rfl⟩

def emptyMessage : Message := ⟨[], by decide⟩

/-- From the empty message 16 bytes of padding come back. -/
theorem empty_message_comes_back_padded :
    quickDecrypt plainCipher (quickEncrypt plainCipher emptyMessage []).1
      (quickEncrypt plainCipher emptyMessage []).2 [] = some (List.replicate 16 16, 16) := by
  decide +kernel

end Ndpi.Guarantees.QuickCrypt
