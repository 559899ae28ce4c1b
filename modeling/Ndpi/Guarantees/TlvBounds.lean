import Ndpi.Guarantees.TlvRoundTrip
import Ndpi.Refinement.TlvSafe

/-!
# The TLV operations write inside their allocation

Whatever the arguments and whatever the calls return, the TLV operations stay in
their buffer as long as it does not come near 4 GiB. There the growth function's
32-bit sum wraps, the buffer shrinks, and the next stores go outside.
-/
namespace Ndpi.Guarantees
open Lib Source.Serialization Refinement List

/-- The serializer after a sequence of calls, whatever each of them returned. -/
def applyAll (calls : List Call) (s : Serializer) : Serializer :=
  calls.foldl (fun s call => (call.op.apply call.heap s).ser) s

lemma applyAll_cons (call : Call) (rest : List Call) (s : Serializer) :
    applyAll (call :: rest) s = applyAll rest (call.op.apply call.heap s).ser := rfl

lemma applyAll_snoc (calls : List Call) (call : Call) (s : Serializer) :
    applyAll (calls ++ [call]) s = (call.op.apply call.heap (applyAll calls s)).ser := by
  rw [applyAll, foldl_append]
  rfl

variable {s : Serializer}

lemma init_contained (init : initSerializerLl heap .tlv n = some s) : Contained s := by
  obtain ⟨sound, clean, fmt, -⟩ := init_tlv init
  exact ⟨fmt, sound, clean⟩

lemma applyAll_contained (calls : List Call) (s : Serializer)
    (plain : ∀ call ∈ calls, ∀ record, call.op ≠ .rawRecord record)
    (below : ∀ k < calls.length, (applyAll (calls.take k) s).buffer.size + 524288 ≤ 4294967296)
    (contained : Contained s) : Contained (applyAll calls s) := by
  induction calls generalizing s with
  | nil => exact contained
  | cons call rest ih =>
    have start := below 0 (by simp)
    have step := apply_stays call.heap call.op (plain call (by simp)) s contained
      contained.sound.inside start
    apply ih (call.op.apply call.heap s).ser
    · intro other member
      exact plain other (by simp [member])
    · intro k inside
      exact below (k + 1) (by simpa using inside)
    · exact step.1

/-- In every run of TLV operations other than `ndpi_serialize_raw_record` that
meets each call with an allocation of at most `2 ^ 32 - 2 ^ 19` bytes, no byte is
ever stored outside the allocation and the used size never passes the allocated
size, after any prefix of the calls and whatever they returned. -/
theorem tlv_calls_stay_inside (heap : Heap) (n : UInt32) (fresh : Serializer)
    (init : initSerializerLl heap .tlv n = some fresh) (calls : List Call)
    (plain : ∀ call ∈ calls, ∀ record, call.op ≠ .rawRecord record) (below : ∀ k < calls.length,
      (applyAll (calls.take k) fresh).buffer.size + 524288 ≤ 4294967296) :
    ∀ k ≤ calls.length, Clean (applyAll (calls.take k) fresh) ∧
      (applyAll (calls.take k) fresh).status.used ≤ (applyAll (calls.take k) fresh).buffer.size := by
  intro k inside
  have reached : Contained (applyAll (calls.take k) fresh) := by
    apply applyAll_contained _ _ _ _ (init_contained init)
    · intro call member
      exact plain call (mem_of_mem_take member)
    · intro j earlier
      rw [length_take] at earlier
      rw [take_take, min_eq_left (by omega)]
      exact below j (by omega)
  exact ⟨reached.clean, reached.sound.inside⟩

theorem tlv_calls_stay_inside_sample :
    Clean (applyAll (sampleCalls.take 5) sampleFresh) ∧
      (applyAll (sampleCalls.take 5) sampleFresh).status.used ≤
        (applyAll (sampleCalls.take 5) sampleFresh).buffer.size :=
  tlv_calls_stay_inside openHeap 96 sampleFresh (by decide +kernel) sampleCalls
    (by
      intro call member record
      simp only [sampleCalls, mem_cons, not_mem_nil, or_false] at member
      rcases member with rfl | rfl | rfl | rfl | rfl <;> exact Op.noConfusion)
    (by decide +kernel) 5 (by decide)

/-- With room for it a byte string is appended and nothing else changes. -/
lemma uint32Binary_fits (contained : Contained s)
    (room : s.status.used + (7 + value.bytes.length) ≤ s.buffer.size) :
    Contained (serializeUint32Binary heap key value s).ser ∧
      (serializeUint32Binary heap key value s).ser.buffer.size = s.buffer.size ∧
      (serializeUint32Binary heap key value s).ser.text =
        s.text ++ (Item.field (.uint32 key) (.string value)).encode := by
  have inside := contained.sound.inside
  have diff := buffDiff_eq s
  rw [if_pos inside] at diff
  have granted : s.reserve heap (7 + value.bytes.length) = ok s := if_neg (by omega)
  have stays := stays_tlvUint32Item key .string (adds_singleString value.bytes) s contained
    (by omega) (le_of_lt contained.sound.size)
  have result : serializeUint32Binary heap key value s =
      (tlvUint32Item key .string (serializeSingleString · value.bytes) s).andThen
        fun s => ok { s with status.flags.notEmpty := true } := by
    unfold serializeUint32Binary serializeItem
    rw [jsonRoom_tlv s contained.fmt, add_zero, granted]
    simp [ok, Outcome.andThen, contained.fmt]
  have after : Contained (serializeUint32Binary heap key value s).ser := by
    rw [result]
    exact stays.1.withFlags _
  have step := appends_uint32Binary heap key value s contained.fmt contained.sound.toShaped
    (by rw [result]; rfl) after.clean
  refine ⟨after, ?_, step.text⟩
  rw [result]
  simp only [tlvUint32Item, serializeKeyUint32_eq]
  rfl

/-- The longest byte string. -/
def longValue : Blob := ⟨List.replicate 65535 0, by rw [List.length_replicate]; decide⟩

lemma longValue_length : longValue.bytes.length = 65535 := length_replicate

lemma stringItem_encoded :
    (Item.field (.uint32 0) (.string value)).encode.length = value.bytes.length + 4 := by
  have key : (uint32Field 0).2.length = 1 := rfl
  simp only [Item.encode, Item.key, Item.value, ItemKey.field, ItemValue.field, length_cons,
    length_append, key, stringField, beBytes_length]
  omega

lemma longValue_encoded :
    (Item.field (.uint32 0) (.string longValue)).encode.length = 65539 := by
  rw [stringItem_encoded, longValue_length]

def longCall : Call := ⟨openHeap, .item (.uint32 0) (.binary longValue)⟩

lemma longCall_apply (s : Serializer) :
    longCall.op.apply longCall.heap s = serializeUint32Binary openHeap 0 longValue s := rfl

lemma longCall_fits (contained : Contained s) (room : s.status.used + 65542 ≤ s.buffer.size) :
    Contained (longCall.op.apply longCall.heap s).ser ∧
      (longCall.op.apply longCall.heap s).ser.buffer.size = s.buffer.size ∧
      (longCall.op.apply longCall.heap s).ser.status.used = s.status.used + 65539 := by
  obtain ⟨after, size, text⟩ := uint32Binary_fits contained
    (by rw [longValue_length]; exact room)
  have grown := congrArg List.length text
  rw [length_append, longValue_encoded, after.sound.text_length,
    contained.sound.text_length] at grown
  rw [longCall_apply]
  exact ⟨after, size, grown⟩

/-- The calls before the last fill the buffer without growing it. -/
lemma longCalls_fill {fresh : Serializer} (contained : Contained fresh)
    (size : fresh.buffer.size = 4294967295) (used : fresh.status.used = 2) {count : Nat}
    (fits : count ≤ 65533) :
    Contained (applyAll (List.replicate count longCall) fresh) ∧
      (applyAll (List.replicate count longCall) fresh).buffer.size = 4294967295 ∧
      (applyAll (List.replicate count longCall) fresh).status.used = 2 + 65539 * count := by
  induction count with
  | zero => exact ⟨contained, size, used⟩
  | succ count ih =>
    obtain ⟨before, size', used'⟩ := ih (by omega)
    obtain ⟨after, size'', used''⟩ := longCall_fits before (by omega)
    rw [replicate_succ', applyAll_snoc]
    refine ⟨after, size''.trans size', ?_⟩
    rw [used'', used']
    omega

lemma reserve_open (s : Serializer) : (s.reserve openHeap needed).rc = 0 := by
  unfold Serializer.reserve
  split <;> rfl

/-- If the buffer grows whenever it has to, a byte string is always taken. -/
lemma uint32Binary_taken (tlv : s.fmt = .tlv) :
    (serializeUint32Binary openHeap key value s).rc = 0 := by
  unfold serializeUint32Binary serializeItem
  rw [Outcome.andThen, if_pos (reserve_open s)]
  have fmt := reserve_fmt s openHeap (7 + value.bytes.length + s.jsonRoom
    (24 + value.bytes.length * 2))
  rw [tlv] at fmt
  simp only [fmt]
  rfl

/-- Without room for it the item cannot end below `2 ^ 32`, so something strays. -/
lemma longCall_strays (contained : Contained s) (full : 4294967296 ≤ s.status.used + 65539) :
    ¬Clean (longCall.op.apply longCall.heap s).ser := by
  intro clean
  rw [longCall_apply] at clean
  have step := appends_uint32Binary openHeap 0 longValue s contained.fmt
    contained.sound.toShaped (uint32Binary_taken contained.fmt) clean
  have grown := congrArg List.length step.text
  rw [length_append, longValue_encoded, step.after.text_length,
    contained.sound.text_length] at grown
  have bound := step.after.used
  omega

/-- A run that leaves the allocation: strings of 65535 bytes into an initial
buffer of `2 ^ 32 - 1`, up to the first that makes it grow. -/
theorem tlv_calls_leave_allocation :
    ∃ fresh, initSerializerLl openHeap .tlv 4294967295 = some fresh ∧
      (∀ call ∈ List.replicate 65534 longCall, ∀ record, call.op ≠ .rawRecord record) ∧
      ¬Clean (applyAll (List.replicate 65534 longCall) fresh) := by
  obtain ⟨fresh, init⟩ : ∃ fresh, initSerializerLl openHeap .tlv 4294967295 = some fresh := ⟨_, rfl⟩
  have contained := init_contained init
  have size : fresh.buffer.size = 4294967295 := by
    cases init
    rfl
  have used : fresh.status.used = 2 := by
    cases init
    rfl
  obtain ⟨before, -, used'⟩ := longCalls_fill contained size used (le_refl _)
  refine ⟨fresh, init, ?_, ?_⟩
  · intro call member record
    rw [eq_of_mem_replicate member]
    exact Op.noConfusion
  · rw [replicate_succ', applyAll_snoc]
    exact longCall_strays before (by omega)

end Ndpi.Guarantees
