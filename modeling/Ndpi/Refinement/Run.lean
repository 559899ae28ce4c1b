import Ndpi.Refinement.TlvWrite

/-!
# Runs of operations

A run applies one call after another, each with the allocator of its own moment,
and goes on as long as every call returns 0 and stores only inside its buffer: a
call that writes outside has no defined return value.
-/
namespace Ndpi.Refinement
open Lib Source.Serialization List Memory

structure Call where
  heap : Heap
  op : Op

def runCalls : List Call → Serializer → Option Serializer
  | [], s => some s
  | call :: rest, s =>
    let outcome := call.op.apply call.heap s
    if outcome.rc = 0 ∧ Clean outcome.ser then runCalls rest outcome.ser else none

lemma runCalls_cons (run : runCalls (call :: rest) s = some t) :
    (call.op.apply call.heap s).rc = 0 ∧ Clean (call.op.apply call.heap s).ser ∧
      runCalls rest (call.op.apply call.heap s).ser = some t := by
  simp only [runCalls] at run
  split at run
  · next returned => exact ⟨returned.1, returned.2, run⟩
  · cases run

/-- A fresh TLV serializer holds the two header bytes. -/
lemma init_tlv (init : initSerializerLl heap .tlv n = some s) :
    Sound s ∧ Clean s ∧ s.fmt = .tlv ∧ s.text = [1, 1] := by
  have small := n.toNat_lt
  unfold initSerializerLl at init
  simp only [show (SerializationFormat.tlv == .multilineJson) = false from rfl,
    show (SerializationFormat.tlv == .innerJson) = false from rfl, Bool.or_false,
    Bool.false_eq_true, if_false] at init
  split at init
  · cases init
  · next large =>
    unfold initSerializerBuffer at init
    by_cases granted : heap.grants n.toNat = true
    · simp only [granted, if_true, Option.some.injEq] at init
      subst init
      have length : (List.replicate n.toNat (0 : UInt8)).length = n.toNat := length_replicate
      have bytes := storeAll_take_append [1, 1] ⟨List.replicate n.toNat 0, []⟩ 0
        (by rw [length]; simp only [length_cons, length_nil]; omega)
      have header : 2 < 4294967296 := by decide
      refine ⟨⟨⟨?_, small, header⟩, ?_⟩, ?_, rfl, bytes⟩
      · exact (storeAll_length _ _ _).trans length
      · show 2 ≤ n.toNat
        omega
      · exact storeAll_inside [1, 1] ⟨List.replicate n.toNat 0, []⟩ 0
          (by rw [length]; simp only [length_cons, length_nil]; omega)
    · simp only [granted] at init
      cases init

/-- A run of TLV operations appends their items in order. -/
lemma runCalls_appends (calls : List Call) (items : List Item) (s t : Serializer)
    (forms : calls.map (fun call => Op.tlvItem call.op) = items.map some)
    (keeps : ∀ call ∈ calls, Op.KeepsKey call.op) (fmt : s.fmt = .tlv) (sound : Sound s)
    (run : runCalls calls s = some t) :
    t.fmt = .tlv ∧ Sound t ∧ t.text = s.text ++ items.flatMap Item.encode := by
  induction calls generalizing items s with
  | nil =>
    cases items with
    | nil =>
      cases run
      exact ⟨fmt, sound, (append_nil _).symm⟩
    | cons item items => cases forms
  | cons call rest ih =>
    cases items with
    | nil => cases forms
    | cons item items =>
      simp only [map_cons, List.cons.injEq] at forms
      obtain ⟨returned, clean, run⟩ := runCalls_cons run
      have step := apply_appends call.heap call.op item forms.1 (keeps call (by simp)) s fmt
        sound.toShaped returned clean
      obtain ⟨fmt', sound', text⟩ := ih items _ forms.2
        (fun other member => keeps other (by simp [member])) step.fmt step.after run
      refine ⟨fmt', sound', ?_⟩
      rw [text, step.text, append_assoc, flatMap_cons]

end Ndpi.Refinement
