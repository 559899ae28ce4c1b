import Ndpi.Guarantees.JsonRecords
import Ndpi.Guarantees.TlvBounds
import Ndpi.Refinement.JsonRaw

/-!
# JSON calls that return 0 write inside their allocation

A call that succeeds stored nothing outside and left its offset inside, in any run
and whatever the calls before it returned, if it found the serializer ready for it.
A raw record of nearly `2 ^ 16` bytes is accepted without the space for it.
-/
namespace Ndpi.Guarantees
open Lib Source.Serialization Refinement List Memory

lemma init_framed (init : initSerializerLl heap (jsonFormat multiline) n = some s) :
    Framed multiline s := by
  obtain ⟨shows, -⟩ := init_shows init
  exact ⟨shows.sound.cells, shows.sound.size, shows.fmt, shows.mode, shows.outer⟩

lemma applyAll_framed (calls : List Call) (s : Serializer) (framed : Framed multiline s) :
    Framed multiline (applyAll calls s) := by
  induction calls generalizing s with
  | nil => exact framed
  | cons call rest ih =>
    rw [applyAll_cons]
    exact ih _ (apply_framed call.heap call.op framed)

/-- In every run on a JSON serializer of any size, whatever the earlier calls
returned, a call that finds the serializer ready and returns 0 has stored nothing
outside the allocation and leaves the used size at most the allocated one. -/
theorem json_calls_stay_inside (heap : Heap) (multiline : Bool) (n : UInt32) (fresh : Serializer)
    (init : initSerializerLl heap (jsonFormat multiline) n = some fresh)
    (before : List Call) (call : Call) (ready : Ready (applyAll before fresh) call.op)
    (success : (call.op.apply call.heap (applyAll before fresh)).rc = 0) :
    (applyAll (before ++ [call]) fresh).buffer.data.stray =
        (applyAll before fresh).buffer.data.stray ∧
      (applyAll (before ++ [call]) fresh).status.used ≤
        (applyAll (before ++ [call]) fresh).buffer.size := by
  have framed := applyAll_framed before fresh (init_framed init)
  have after := apply_inside framed ready success
  rw [applyAll_snoc]
  exact ⟨after.stray, after.used⟩

theorem json_calls_stay_inside_sample :
    (applyAll (callsOf (sampleRecord.ops.take 5)) (jsonStart .json)).buffer.data.stray =
        (applyAll (callsOf (sampleRecord.ops.take 4)) (jsonStart .json)).buffer.data.stray ∧
      (applyAll (callsOf (sampleRecord.ops.take 5)) (jsonStart .json)).status.used ≤
        (applyAll (callsOf (sampleRecord.ops.take 5)) (jsonStart .json)).buffer.size :=
  json_calls_stay_inside openHeap false 64 (jsonStart .json) rfl
    (callsOf (sampleRecord.ops.take 4)) ⟨openHeap, .item (.uint32 0) (.uint32 3)⟩
    ⟨by decide +kernel, by decide +kernel, by decide +kernel, fun _ raw => by cases raw⟩
    (by decide +kernel)

/-- A raw record as long as 16 bits count. -/
def longRecord : RawRecord :=
  ⟨List.replicate 65535 0, by rw [List.length_replicate]; decide⟩

lemma longRecord_length : longRecord.bytes.length = 65535 := length_replicate

/-- A first raw record that leaves nothing outside was given the space it takes. -/
lemma rawRecord_clean (heap : Heap) (record : RawRecord) (framed : Framed false s)
    (empty : rawEmpty s = true) (granted : (s.reserve heap (rawNeeded record s)).rc = 0)
    (clean : Clean (serializeRawRecord heap record s).ser) (filled : record.bytes ≠ []) :
    1 + record.bytes.length ≤ (s.reserve heap (rawNeeded record s)).ser.buffer.size := by
  have reserved := reserve_framed heap (rawNeeded record s) framed
  have moved := rawMoved_framed true reserved
  have written := moved.footprint (footprint_rawWritten 0 0 true record (.inl rfl)).1
  have kept := form_stray (endOfRecord_takesForm heap) written
  rw [serializeRawRecord_json heap record framed.fmt, Outcome.andThen, if_pos granted, empty]
    at clean
  rw [show (serializeEndOfRecord heap _).ser.buffer.data.stray = [] from clean,
    prefix_nil, rawWritten, if_neg (by rw [moved.mode]; decide), if_pos rfl] at kept
  obtain ⟨copied, -⟩ := storeAll_clean _ _ _ kept
  obtain ⟨-, inside⟩ := storeAll_clean _ _ _ copied
  have room := inside filled
  rw [← reserved.cells]
  have used : (rawMoved true (s.reserve heap (rawNeeded record s)).ser).takeBack.status.used = 1 := by
    show sub32 (if _ then 0 else 2) 1 = 1
    rw [reserved.mode]
    rfl
  rw [used] at room
  exact room

/-- A raw record of 65535 bytes is accepted by a serializer of 64 bytes: the space
it needs, with the bracket, is computed as 0. -/
theorem long_raw_record_strays :
    ∃ fresh, initSerializerLl openHeap .json 64 = some fresh ∧ Clean fresh ∧
      ((Op.rawRecord longRecord).apply openHeap fresh).rc = 0 ∧
      ¬Clean ((Op.rawRecord longRecord).apply openHeap fresh).ser := by
  have init : initSerializerLl openHeap (jsonFormat false) 64 = some (jsonStart .json) := rfl
  have framed := init_framed init
  have empty : rawEmpty (jsonStart .json) = true := rfl
  have needed : rawNeeded longRecord (jsonStart .json) = 0 := by
    rw [rawNeeded, empty, longRecord_length]
    rfl
  have granted : (jsonStart .json).reserve openHeap (rawNeeded longRecord (jsonStart .json)) =
      ok (jsonStart .json) := by
    rw [needed]
    exact reserve_nothing _ _
  refine ⟨jsonStart .json, init, rfl, ?_, fun clean => ?_⟩
  · show (serializeRawRecord openHeap longRecord (jsonStart .json)).rc = 0
    rw [serializeRawRecord_json openHeap longRecord framed.fmt, granted]
    rfl
  · have filled : longRecord.bytes ≠ [] := by
      intro none
      have length := longRecord_length
      rw [none] at length
      cases length
    have room := rawRecord_clean openHeap longRecord framed empty (by rw [granted]; rfl) clean filled
    rw [longRecord_length, granted] at room
    exact absurd room (by decide)

end Ndpi.Guarantees
