import Ndpi.Guarantees.DnsBounds

/-!
# The OPT record of a DNS response

The walks over questions, answers and authority records skip each of them exactly.
The additional records are skipped as if their `RDLENGTH` and `RDATA` were names: with
1 to 191 bytes of data the low byte of the length passes for the length of a label,
and the walk is back on the next record; with none or more it is not.
-/
namespace Ndpi.Guarantees.DnsOpt
open Lib Source.Dns Guarantees.DnsBounds List Scan

/-- What ends a name: the root, or a pointer to an earlier name. -/
inductive NameEnd where
  | root
  | pointer (target : Fin 16384)
  deriving DecidableEq

def NameEnd.wire : NameEnd → Bytes
  | .root => [0]
  | .pointer target => beBytes 2 (0xC000 + target.val)

def labelsWire (labels : List Bytes) : Bytes :=
  labels.flatMap fun label => UInt8.ofNat label.length :: label

structure Name where
  labels : List Bytes
  ending : NameEnd
  short : ∀ label ∈ labels, 1 ≤ label.length ∧ label.length ≤ 63

def Name.wire (name : Name) : Bytes := labelsWire name.labels ++ name.ending.wire

structure Question where
  name : Name
  qtype : UInt16
  qclass : UInt16

def Question.wire (q : Question) : Bytes :=
  q.name.wire ++ (beBytes 2 q.qtype.toNat ++ beBytes 2 q.qclass.toNat)

/-- A resource record; for an OPT record the class is the size of a UDP payload. -/
structure Record where
  name : Name
  type : UInt16
  cls : UInt16
  ttl : UInt32
  rdata : Bytes
  short : rdata.length < 65536

def Record.fields (r : Record) : Bytes :=
  beBytes 2 r.type.toNat ++ (beBytes 2 r.cls.toNat ++ beBytes 4 r.ttl.toNat)

def Record.wire (r : Record) : Bytes :=
  r.name.wire ++ (r.fields ++ (beBytes 2 r.rdata.length ++ r.rdata))

/-- The sections of a response, with counts that a header can have. -/
structure Response where
  questions : List Question
  answers : List Record
  authorities : List Record
  additionals : List Record
  counts : questions.length < 65536 ∧ answers.length < 65536 ∧ authorities.length < 65536 ∧
    additionals.length < 65536

def Response.wire (m : Response) : Bytes :=
  m.questions.flatMap Question.wire ++ (m.answers.flatMap Record.wire ++
    (m.authorities.flatMap Record.wire ++ m.additionals.flatMap Record.wire))

def Response.header (m : Response) : Header :=
  ⟨UInt16.ofNat m.questions.length, UInt16.ofNat m.answers.length,
    UInt16.ofNat m.authorities.length, UInt16.ofNat m.additionals.length⟩

/-- The bytes stand at this offset of the payload. -/
def At (payload : Bytes) (x : Nat) (bytes : Bytes) : Prop :=
  ∃ before after, payload = before ++ bytes ++ after ∧ before.length = x

lemma At.left (stands : At payload x (first ++ second)) : At payload x first := by
  obtain ⟨before, after, contents, position⟩ := stands
  exact ⟨before, second ++ after, by rw [contents]; simp, position⟩

lemma At.right (stands : At payload x (first ++ second)) :
    At payload (x + first.length) second := by
  obtain ⟨before, after, contents, position⟩ := stands
  exact ⟨before ++ first, after, by rw [contents]; simp, by simp [position]⟩

lemma At.inside (stands : At payload x bytes) : x + bytes.length ≤ payload.length := by
  obtain ⟨before, after, contents, position⟩ := stands
  rw [contents]
  simp
  omega

lemma At.fetch (stands : At payload x bytes) :
    ((⟨payload, []⟩ : Memory).fetch x bytes.length).val = bytes := by
  obtain ⟨before, after, contents, position⟩ := stands
  exact Memory.fetch_val _ x before bytes after contents position

section

variable {p : Packet} {fuel x : Nat}

lemma get16_at (small : n < 65536) (stands : At p.payload x (beBytes 2 n)) :
    (get16 p x).Yields p.payloadPacketLen (· = n) := by
  have inside := stands.inside
  have value := stands.fetch
  rw [beBytes_length] at inside value
  apply (get16_yields inside).weaken
  intro result read
  rw [read, value]
  exact beNat_beBytes_of_lt small

variable {byte : UInt8}

section
variable (stands : At p.payload x [byte])
include stands

lemma byte_at :
    (p.byte x).Yields p.payloadPacketLen (· = byte.toNat) := by
  obtain ⟨before, after, contents, position⟩ := stands
  have inside : x < p.payloadPacketLen := by
    unfold Packet.payloadPacketLen
    rw [contents]
    simp
    omega
  apply (byte_yields inside).weaken
  intro result read
  rw [read, contents, ← position]
  simp

/-- A byte that no label starts with. -/
lemma getNameLength_end {length : Nat}
    (ends : byte.toNat = 0 ∧ length = 1 ∨ 192 ≤ byte.toNat ∧ length = 2) (enough : 0 < fuel) :
    (getNameLength p fuel x).Yields p.payloadPacketLen (· = length) := by
  have inside : x + 1 ≤ p.payloadPacketLen := stands.inside
  obtain ⟨fuel, rfl⟩ := Nat.exists_eq_succ_of_ne_zero (Nat.pos_iff_ne_zero.mp enough)
  rw [getNameLength, if_neg (by omega)]
  apply yields_bind (byte_at stands)
  intro len read
  subst read
  rcases ends with ⟨zero, rfl⟩ | ⟨top, rfl⟩
  · rw [if_pos zero]
    exact yields_pure rfl
  · rw [if_neg (by omega), if_pos ((top_bits_iff (UInt8.toNat_lt byte)).mpr top)]
    exact yields_pure rfl

lemma getNameLength_label (label : 1 ≤ byte.toNat ∧ byte.toNat ≤ 191)
    (later : (getNameLength p fuel (x + (byte.toNat + 1))).Yields p.payloadPacketLen (· = rest)) :
    (getNameLength p (fuel + 1) x).Yields p.payloadPacketLen (· = byte.toNat + 1 + rest) := by
  have inside : x + 1 ≤ p.payloadPacketLen := stands.inside
  rw [getNameLength, if_neg (by omega)]
  apply yields_bind (byte_at stands)
  intro len read
  subst read
  have top : ¬byte.toNat &&& 0xC0 = 0xC0 := by
    rw [top_bits_iff (UInt8.toNat_lt byte)]
    omega
  have off : (byte.toNat + 1) % 256 = byte.toNat + 1 := by omega
  rw [if_neg (by omega), if_neg top, off]
  apply yields_bind later
  intro length measured
  exact yields_pure (congrArg (byte.toNat + 1 + ·) measured)

end

lemma pointer_wire :
    (NameEnd.pointer target).wire =
      [UInt8.ofNat (0xC0 + target.val / 256)] ++ [UInt8.ofNat target.val] := by
  have high : (0xC000 + target.val) / 256 = 0xC0 + target.val / 256 := by omega
  have low : UInt8.ofNat (0xC000 + target.val) = UInt8.ofNat target.val := by
    apply UInt8.toNat.inj
    rw [UInt8.toNat_ofNat', UInt8.toNat_ofNat']
    omega
  rw [NameEnd.wire, beBytes, beBytes, beBytes, high, low]
  rfl

lemma getNameLength_ending {ending : NameEnd} (stands : At p.payload x ending.wire)
    (enough : 0 < fuel) :
    (getNameLength p fuel x).Yields p.payloadPacketLen (· = ending.wire.length) := by
  cases ending with
  | root => exact getNameLength_end stands (.inl ⟨rfl, rfl⟩) enough
  | pointer target =>
    rw [pointer_wire] at stands ⊢
    refine getNameLength_end stands.left (.inr ⟨?_, rfl⟩) enough
    rw [UInt8.toNat_ofNat']
    omega

/-- Labels of up to 191 bytes are skipped, and so is what ends the name. -/
lemma getNameLength_at {ending : NameEnd}
    (short : ∀ label ∈ labels, 1 ≤ label.length ∧ label.length ≤ 191)
    (stands : At p.payload x (labelsWire labels ++ ending.wire))
    (enough : p.payloadPacketLen - x < fuel) :
    (getNameLength p fuel x).Yields p.payloadPacketLen
      (· = (labelsWire labels ++ ending.wire).length) := by
  induction labels generalizing x fuel with
  | nil => exact getNameLength_ending stands (by omega)
  | cons label labels ih =>
    obtain ⟨some, few⟩ := short label mem_cons_self
    have inside := stands.inside
    have size : (UInt8.ofNat label.length).toNat = label.length :=
      UInt8.toNat_ofNat_of_lt (show label.length < 256 by omega)
    have split : labelsWire (label :: labels) ++ ending.wire =
        [UInt8.ofNat label.length] ++ (label ++ (labelsWire labels ++ ending.wire)) := by
      simp [labelsWire]
    rw [split] at stands inside ⊢
    simp only [length_append, length_singleton] at inside
    obtain ⟨fuel, rfl⟩ : ∃ less, fuel = less + 1 := ⟨fuel - 1, by omega⟩
    have later : At p.payload (x + (label.length + 1)) (labelsWire labels ++ ending.wire) := by
      have skipped := stands.right.right
      rwa [length_singleton, add_assoc, add_comm 1] at skipped
    have fewer : p.payloadPacketLen - (x + (label.length + 1)) < fuel := by
      change _ ≤ p.payloadPacketLen at inside
      omega
    have rest := ih (fun other later => short other (mem_cons_of_mem label later)) later fewer
    rw [← size] at rest
    apply (getNameLength_label stands.left (by omega) rest).weaken
    intro length measured
    rw [measured, size]
    simp only [length_append, length_singleton]
    omega

/-- The length of a name is kept whole in 16 bits. -/
lemma dataLength_at {ending : NameEnd}
    (short : ∀ label ∈ labels, 1 ≤ label.length ∧ label.length ≤ 191)
    (stands : At p.payload x (labelsWire labels ++ ending.wire))
    (enough : p.payloadPacketLen < fuel) :
    (dataLength p fuel x).Yields p.payloadPacketLen
      fun length => length = (labelsWire labels ++ ending.wire).length ∧ 0 < length := by
  have inside := stands.inside
  have limit := p.short
  have positive : 0 < ending.wire.length := by
    cases ending with
    | root => exact Nat.zero_lt_one
    | pointer target => rw [NameEnd.wire, beBytes_length]; exact two_pos
  apply yields_bind (getNameLength_at short stands (by omega))
  intro length measured
  apply yields_pure
  rw [measured, wrap16_of_lt (by omega)]
  exact ⟨rfl, by rw [length_append]; omega⟩

lemma dataLength_name {name : Name} (stands : At p.payload x name.wire)
    (enough : p.payloadPacketLen < fuel) :
    (dataLength p fuel x).Yields p.payloadPacketLen
      fun length => length = name.wire.length ∧ 0 < length :=
  dataLength_at (fun label member => ⟨(name.short label member).1,
    le_trans (name.short label member).2 (by decide)⟩) stands enough

end

section

variable {p : Packet} {fuel : Nat}

/-- A loop whose turns skip one item each is at the end of the items after them. In the
turns `extra` bytes after an item may be relied on. -/
lemma turns_skip {turn : σ → Scan (Turn σ Walked)} {done : σ → Walked} (position : σ → Nat)
    (wire : ι → Bytes) (extra : Nat) (each : ∀ s item, At p.payload (position s) (wire item) →
      position s + (wire item).length + extra ≤ p.payloadPacketLen →
      (turn s).Yields p.payloadPacketLen fun came =>
        ∃ t, came = .stay t ∧ position t = position s + (wire item).length) {items : List ι} {s : σ}
    (stands : At p.payload (position s) (items.flatMap wire))
    (room : position s + (items.flatMap wire).length + extra ≤ p.payloadPacketLen) :
    (Scan.turns turn done items.length s).Yields p.payloadPacketLen fun walked =>
      ∃ t, walked = done t ∧ position t = position s + (items.flatMap wire).length := by
  induction items generalizing s with
  | nil => exact yields_pure ⟨s, rfl, rfl⟩
  | cons item items ih =>
    rw [flatMap_cons] at stands
    simp only [flatMap_cons, length_append] at room
    apply yields_bind (each s item stands.left (by omega))
    rintro came ⟨t, rfl, moved⟩
    have later := stands.right
    rw [← moved] at later
    apply (ih later (by omega)).weaken
    rintro walked ⟨u, rfl, ended⟩
    refine ⟨u, rfl, ?_⟩
    rw [ended, moved, flatMap_cons, length_append, add_assoc]

lemma queryTurn_at (enough : p.payloadPacketLen < fuel) (s : Place) (q : Question)
    (stands : At p.payload s.x q.wire) :
    (queryTurn p fuel s).Yields p.payloadPacketLen fun came =>
      ∃ t : Place, came = .stay t ∧ t.x = s.x + q.wire.length := by
  have inside : _ ≤ p.payloadPacketLen := stands.inside
  have length : q.wire.length = q.name.wire.length + 4 := by simp [Question.wire]
  apply yields_bind (dataLength_name stands.left enough)
  rintro dataLen ⟨rfl, positive⟩
  rw [if_neg (by omega)]
  rw [if_neg (by omega)]
  apply yields_bind (get16_yields (by omega))
  intro rspType _
  exact yields_pure ⟨_, rfl, by dsimp only; omega⟩

lemma record_length (r : Record) : r.wire.length = r.name.wire.length + 10 + r.rdata.length := by
  simp [Record.wire, Record.fields]
  omega

/-- The length of the data is what stands eight bytes after the name. -/
lemma record_rdlength {r : Record} {x : Nat} (stands : At p.payload x r.wire) :
    (get16 p (x + r.name.wire.length + 8)).Yields p.payloadPacketLen (· = r.rdata.length) := by
  apply get16_at r.short
  have there := stands.right.right.left
  simpa [Record.fields] using there

lemma answerData_at (enough : p.payloadPacketLen < fuel) {r : Record} {x : Nat}
    (stands : At p.payload x r.wire) (room : x + r.wire.length + 4 ≤ p.payloadPacketLen) :
    (answerData p fuel cfg rspType ⟨x + r.name.wire.length + 2, found, flow⟩).Yields
      p.payloadPacketLen fun t => t.x = x + r.wire.length := by
  have length := record_length r
  unfold answerData
  dsimp only
  rw [if_pos (by omega)]
  apply yields_bind (get32_yields (by omega))
  intro ttl _
  apply yields_bind (record_rdlength stands)
  rintro dataLen rfl
  rw [if_pos (by omega)]
  refine yields_bind
    (useAnswer_yields enough cfg rspType ttl found flow (by omega) (by omega)) ?_
  intro used _
  exact yields_pure (by dsimp only; omega)

/-- The turn for a record begins with its name; after it so many bytes are still to be
there. -/
lemma yields_past_name {name : Name} {absent tight : Scan β}
    {next : Nat → Scan β} {post : β → Prop} (stands : At p.payload x name.wire)
    (enough : p.payloadPacketLen < fuel) (room : x + name.wire.length + margin < p.payloadPacketLen)
    (rest : (next name.wire.length).Yields p.payloadPacketLen post) :
    (dataLength p fuel x >>= fun dataLen =>
      if dataLen = 0 then absent
      else if x + dataLen + margin ≥ p.payloadPacketLen then tight
      else next dataLen).Yields p.payloadPacketLen post := by
  apply yields_bind (dataLength_name stands enough)
  rintro dataLen ⟨rfl, positive⟩
  rw [if_neg (by omega), if_neg (by omega)]
  exact rest

lemma answerTurn_at (enough : p.payloadPacketLen < fuel) (cfg : Settings) {header : Header}
    (more : header.additionalRrs ≠ 0) (s : AnswerPlace) (r : Record)
    (stands : At p.payload s.x r.wire) (room : s.x + r.wire.length + 4 ≤ p.payloadPacketLen) :
    (answerTurn p fuel cfg header s).Yields p.payloadPacketLen fun came =>
      ∃ t : AnswerPlace, came = .stay t ∧ t.x = s.x + r.wire.length := by
  have length := record_length r
  apply yields_past_name stands.left enough (by omega)
  apply yields_bind (get16_yields (by omega))
  intro rspType _
  apply yields_bind (get32_yields (by omega))
  intro rspTtl _
  apply yields_bind (answerData_at enough stands room)
  intro after moved
  rw [if_neg (fun both => more both.2)]
  exact yields_pure ⟨after, rfl, moved⟩

lemma authorityTurn_at (enough : p.payloadPacketLen < fuel) (s : Place) (r : Record)
    (stands : At p.payload s.x r.wire) (room : s.x + r.wire.length + 4 ≤ p.payloadPacketLen) :
    (authorityTurn p fuel s).Yields p.payloadPacketLen fun came =>
      ∃ t : Place, came = .stay t ∧ t.x = s.x + r.wire.length := by
  have length := record_length r
  have limit : p.payloadPacketLen < 65536 := p.short
  have wrapped : wrap32 (s.x + 6) = s.x + 6 := wrap32_of_lt (by omega)
  unfold authorityTurn
  rw [wrapped, if_neg (by omega)]
  apply yields_past_name stands.left enough (by omega)
  apply yields_bind (get16_yields (by omega))
  intro rspType _
  rw [if_pos (by omega)]
  apply yields_bind (record_rdlength stands)
  rintro dataLen rfl
  refine yields_pure ⟨_, rfl, ?_⟩
  dsimp only
  rw [if_pos (by omega)]
  omega

end

section

variable {p : Packet} {fuel : Nat}

/-- The data after which the walk finds the next record. -/
def Skippable (r : Record) : Prop := 1 ≤ r.rdata.length ∧ r.rdata.length ≤ 191

/-- The size that the OPT records announce, the last one counting. -/
def announced (size : Nat) (records : List Record) : Nat :=
  records.foldl (fun size r => if r.type = 41 then r.cls.toNat else size) size

lemma rdlength_wire (r : Record) :
    beBytes 2 r.rdata.length ++ r.rdata =
      [UInt8.ofNat (r.rdata.length / 256)] ++ labelsWire [r.rdata] := by
  simp [beBytes, labelsWire]

lemma labelsWire_append :
    labelsWire (first ++ second) = labelsWire first ++ labelsWire second := flatMap_append

section

variable {x : Nat} {lead : List Bytes} {r : Record}
  (stands : At p.payload x (labelsWire lead ++ r.wire))

include stands

lemma lead_name : At p.payload x (labelsWire (lead ++ r.name.labels) ++ r.name.ending.wire) := by
  rw [Record.wire, ← append_assoc] at stands
  rw [labelsWire_append, append_assoc]
  exact stands.left

lemma lead_fields :
    At p.payload (x + (labelsWire lead ++ r.name.wire).length)
      (r.fields ++ (beBytes 2 r.rdata.length ++ r.rdata)) := by
  rw [Record.wire, ← append_assoc] at stands
  exact stands.right

end

section
variable (enough : p.payloadPacketLen < fuel)
include enough

lemma dataLength_zero (stands : At p.payload x [0]) :
    (dataLength p fuel x).Yields p.payloadPacketLen (· = 1) := by
  refine yields_bind (getNameLength_end stands (.inl ⟨rfl, rfl⟩) (by omega)) ?_
  rintro length rfl
  exact yields_pure rfl

/-- A turn on a record that the walk has come to, be it past the data of the record
before as past a label: an OPT record sets the size, and after data that can be
skipped the walk stands on the low byte of their length. -/
lemma additionalTurn_at {s : Place}
    (short : ∀ label ∈ lead, 1 ≤ label.length ∧ label.length ≤ 191)
    (stands : At p.payload s.x (labelsWire lead ++ r.wire)) :
    (additionalTurn p fuel s).Yields p.payloadPacketLen fun came =>
      ∃ flow : DnsFlow,
        flow.edns0UdpPayloadSize = announced s.flow.edns0UdpPayloadSize [r] ∧
        ((∃ x, came = .stay ⟨x, flow⟩ ∧
            (Skippable r → x = s.x + (labelsWire lead ++ r.name.wire).length + 9)) ∨
          came = .leave (none, flow) ∧ ¬Skippable r) := by
  have name := lead_name stands
  have fields := lead_fields stands
  have inside : s.x + (labelsWire lead ++ r.name.wire).length + 10 ≤ p.payloadPacketLen := by
    have bound : _ ≤ p.payloadPacketLen := fields.inside
    have size : (r.fields ++ (beBytes 2 r.rdata.length ++ r.rdata)).length =
        10 + r.rdata.length := by
      simp [Record.fields]
      omega
    rw [size] at bound
    omega
  have length : (labelsWire (lead ++ r.name.labels) ++ r.name.ending.wire).length =
      (labelsWire lead ++ r.name.wire).length := by
    rw [labelsWire_append, append_assoc, Name.wire]
  have fields_length : r.fields.length = 8 := by simp [Record.fields]
  have limit : p.payloadPacketLen < 65536 := p.short
  have wrapped : wrap32 (s.x + 6) = s.x + 6 := wrap32_of_lt (by omega)
  have labels : ∀ label ∈ lead ++ r.name.labels, 1 ≤ label.length ∧ label.length ≤ 191 := by
    intro label member
    rcases mem_append.mp member with early | late
    · exact short label early
    · have bounds := r.name.short label late
      omega
  unfold additionalTurn
  rw [wrapped, if_neg (by omega)]
  apply yields_bind (dataLength_at labels name enough)
  rintro dataLen ⟨measured, positive⟩
  rw [length] at measured
  subst measured
  rw [if_neg (by omega)]
  rw [if_neg (by omega)]
  apply yields_bind (get16_at r.type.toNat_lt fields.left.left)
  rintro rspType rfl
  apply yields_bind (useAdditional_yields (by omega))
  intro flow set
  have size : flow.edns0UdpPayloadSize = announced s.flow.edns0UdpPayloadSize [r] := by
    have cls := fields.left.right.left
    have read := cls.fetch
    simp only [beBytes_length] at read
    rw [set, read, beNat_beBytes_of_lt r.cls.toNat_lt]
    exact if_congr (by rw [← UInt16.toNat_inj]; rfl) rfl rfl
  have rdlength := fields.right
  rw [fields_length, rdlength_wire] at rdlength
  by_cases skippable : Skippable r
  · have high : UInt8.ofNat (r.rdata.length / 256) = 0 := by
      have small := skippable.2
      rw [show r.rdata.length / 256 = 0 by omega]
      rfl
    rw [high] at rdlength
    apply yields_bind (dataLength_zero enough rdlength.left)
    rintro dataLen rfl
    exact yields_pure ⟨flow, size, .inl ⟨_, rfl, fun _ => rfl⟩⟩
  · apply yields_bind (dataLength_yields enough)
    intro dataLen _
    split
    · exact yields_pure ⟨flow, size, .inr ⟨rfl, skippable⟩⟩
    · exact yields_pure ⟨flow, size, .inl ⟨_, rfl, fun skips => absurd skips skippable⟩⟩

/-- The walk over additional records of which all but the last can be skipped. -/
lemma additionals_at (short : ∀ label ∈ lead, 1 ≤ label.length ∧ label.length ≤ 191)
    (skippable : ∀ r ∈ records.dropLast, Skippable r)
    (stands : At p.payload s.x (labelsWire lead ++ records.flatMap Record.wire)) :
    (Scan.turns (additionalTurn p fuel) Place.done records.length s).Yields p.payloadPacketLen
      fun walked => walked.2.edns0UdpPayloadSize =
        announced s.flow.edns0UdpPayloadSize records := by
  induction records generalizing lead s with
  | nil => exact yields_pure rfl
  | cons r records ih =>
    rw [flatMap_cons, ← append_assoc] at stands
    apply yields_bind (additionalTurn_at enough short stands.left)
    rintro came ⟨flow, size, came_to⟩
    have folded : announced s.flow.edns0UdpPayloadSize (r :: records) =
        announced flow.edns0UdpPayloadSize records := by
      rw [size]
      rfl
    rw [folded]
    cases records with
    | nil =>
      rcases came_to with ⟨x, rfl, -⟩ | ⟨rfl, -⟩
      · exact yields_pure rfl
      · exact yields_pure rfl
    | cons next records =>
      have skips : Skippable r := skippable r mem_cons_self
      rcases came_to with ⟨x, rfl, moved⟩ | ⟨-, stuck⟩
      · have place : At p.payload x
            (labelsWire [r.rdata] ++ (next :: records).flatMap Record.wire) := by
          have split : labelsWire lead ++ r.wire ++ (next :: records).flatMap Record.wire =
              (labelsWire lead ++ r.name.wire) ++ (r.fields ++
                ([UInt8.ofNat (r.rdata.length / 256)] ++
                  (labelsWire [r.rdata] ++ (next :: records).flatMap Record.wire))) := by
            rw [Record.wire, rdlength_wire]
            simp
          rw [split] at stands
          have later := stands.right.right.right
          have fields_length : r.fields.length = 8 := by simp [Record.fields]
          rwa [fields_length, length_singleton, add_assoc _ 8 1, ← moved skips] at later
        refine ih ?_ (fun other member => skippable other (mem_cons_of_mem r member)) place
        intro label member
        rw [mem_singleton.mp member]
        exact skips
      · exact absurd skips stuck

end

end

variable {p : Packet} {fuel : Nat}

lemma record_long (r : Record) : 11 ≤ r.wire.length := by
  have length := record_length r
  have name : 0 < r.name.wire.length := by
    unfold Name.wire
    cases r.name.ending with
    | root => simp [NameEnd.wire]
    | pointer target => simp [NameEnd.wire]
  omega

section

variable (enough : p.payloadPacketLen < fuel) {header : Header} {x : Nat}

include enough

lemma processQueries_at (flow : DnsFlow) {questions : List Question}
    (count : header.numQueries.toNat = questions.length)
    (stands : At p.payload x (questions.flatMap Question.wire)) :
    (processQueries p fuel header x flow).Yields p.payloadPacketLen fun walked =>
      ∃ flow, walked = (some (x + (questions.flatMap Question.wire).length), flow) := by
  unfold processQueries
  rw [count]
  refine (turns_skip Place.x Question.wire 0 (fun s q there _ => queryTurn_at enough s q there)
    stands stands.inside).weaken ?_
  rintro walked ⟨t, rfl, moved⟩
  exact ⟨t.flow, by rw [Place.done, moved]⟩

lemma processAnswers_at (cfg : Settings) (flow : DnsFlow) {answers : List Record}
    (count : header.numAnswers.toNat = answers.length) (more : header.additionalRrs ≠ 0)
    (stands : At p.payload x (answers.flatMap Record.wire))
    (room : x + (answers.flatMap Record.wire).length + 4 ≤ p.payloadPacketLen) :
    (processAnswers p fuel cfg header x flow).Yields p.payloadPacketLen fun walked =>
      ∃ flow, walked = (some (x + (answers.flatMap Record.wire).length), flow) := by
  unfold processAnswers
  rw [count]
  refine (turns_skip AnswerPlace.x Record.wire 4 (answerTurn_at enough cfg more)
    stands room).weaken ?_
  rintro walked ⟨t, rfl, moved⟩
  exact ⟨t.flow, by rw [AnswerPlace.done, moved]⟩

lemma processAdditionals_at (flow : DnsFlow) {authorities records : List Record}
    (authorityCount : header.authorityRrs.toNat = authorities.length)
    (recordCount : header.additionalRrs.toNat = records.length) (more : header.additionalRrs ≠ 0)
    (stands : At p.payload x (authorities.flatMap Record.wire ++ records.flatMap Record.wire))
    (room : x + (authorities.flatMap Record.wire).length + 4 ≤ p.payloadPacketLen)
    (skippable : ∀ r ∈ records.dropLast, Skippable r) :
    (processAdditionals p fuel header x flow).Yields p.payloadPacketLen fun walked =>
      ∃ size, walked.2.edns0UdpPayloadSize = announced size records := by
  unfold processAdditionals
  rw [if_neg more, authorityCount, recordCount]
  refine yields_bind (turns_skip Place.x Record.wire 4 (authorityTurn_at enough)
    stands.left room) ?_
  rintro walked ⟨t, rfl, moved⟩
  have there : At p.payload t.x (labelsWire [] ++ records.flatMap Record.wire) := by
    rw [moved]
    exact stands.right
  refine (additionals_at enough (fun _ none => (by cases none)) skippable there).weaken ?_
  intro walked size
  exact ⟨_, size⟩

end

/-- The walks through a response as far as the first additional records, where all of
these but the last can be skipped. -/
lemma processResponse_at (enough : p.payloadPacketLen < fuel) (cfg : Settings) (flow : DnsFlow)
    {m : Response} (contents : p.payload = start ++ m.wire ++ rest)
    {records others : List Record} (first : m.additionals = records ++ others)
    (some : records ≠ []) (skippable : ∀ r ∈ records.dropLast, Skippable r) :
    (processResponse p fuel cfg { m.header with additionalRrs := UInt16.ofNat records.length }
      start.length flow).Yields p.payloadPacketLen fun walked =>
        ∃ size, walked.2.edns0UdpPayloadSize = announced size records := by
  obtain ⟨questionCount, answerCount, authorityCount, additionalCount⟩ := m.counts
  have recordCount : records.length < 65536 := by
    rw [first, length_append] at additionalCount
    omega
  have counted {n : Nat} (small : n < 65536) : (UInt16.ofNat n).toNat = n :=
    UInt16.toNat_ofNat_of_lt small
  have more : UInt16.ofNat records.length ≠ 0 := by
    intro zero
    have none := counted recordCount
    rw [zero] at none
    exact some (eq_nil_of_length_eq_zero none.symm)
  have whole : At p.payload start.length m.wire := ⟨start, rest, contents, rfl⟩
  have additionals := whole.right.right
  have room : 4 ≤ (m.additionals.flatMap Record.wire).length := by
    obtain ⟨r, records, rfl⟩ := exists_cons_of_ne_nil some
    have long := record_long r
    rw [first]
    simp
    omega
  have inside : _ ≤ p.payloadPacketLen := additionals.right.inside
  apply yields_bind (processQueries_at enough flow (counted questionCount) whole.left)
  rintro walked ⟨flow, rfl⟩
  refine yields_bind (processAnswers_at enough cfg flow (counted answerCount) more
    whole.right.left (by omega)) ?_
  rintro walked ⟨flow, rfl⟩
  rw [first, flatMap_append, ← append_assoc] at additionals
  exact processAdditionals_at enough flow (counted authorityCount) (counted recordCount) more
    additionals.left (by omega) skippable

lemma announced_last (isOpt : opt.type = 41) :
    announced size (before ++ [opt]) = opt.cls.toNat := by
  simp [announced, isOpt]

lemma announced_none (size : Nat) (none : ∀ r ∈ records, r.type ≠ 41) :
    announced size records = size := by
  induction records with
  | nil => rfl
  | cons r records ih =>
    rw [announced, foldl_cons, if_neg (none r mem_cons_self)]
    exact ih fun other later => none other (mem_cons_of_mem r later)

/-- In a response with an OPT record, let every additional record before it have 1 to
191 bytes of data. The walks through the response up to this record set the size to
the one it announces. They leave it so through the rest of the response if there is
no other OPT record, and the records that another one follows are all of this kind. -/
theorem opt_record_reached (m : Response) (start rest : Bytes)
    (short : (start ++ m.wire ++ rest).length < 65536) (before after : List Record) (opt : Record)
    (split : m.additionals = before ++ opt :: after) (isOpt : opt.type = 41)
    (skippable : ∀ r ∈ before, 1 ≤ r.rdata.length ∧ r.rdata.length ≤ 191) (cfg : Settings)
    (flow : DnsFlow) (fuel : Nat) (enough : (start ++ m.wire ++ rest).length < fuel) :
    ((processResponse ⟨start ++ m.wire ++ rest, short⟩ fuel cfg
        { m.header with additionalRrs := UInt16.ofNat (before.length + 1) } start.length
        flow).Yields
      (start ++ m.wire ++ rest).length
      fun walked => walked.2.edns0UdpPayloadSize = opt.cls.toNat) ∧
    ((∀ r ∈ (opt :: after).dropLast, 1 ≤ r.rdata.length ∧ r.rdata.length ≤ 191) →
      (∀ r ∈ after, r.type ≠ 41) →
      (processResponse ⟨start ++ m.wire ++ rest, short⟩ fuel cfg m.header start.length flow).Yields
        (start ++ m.wire ++ rest).length
        fun walked => walked.2.edns0UdpPayloadSize = opt.cls.toNat) := by
  constructor
  · have first : m.additionals = (before ++ [opt]) ++ after := by simp [split]
    have walks := processResponse_at (p := ⟨start ++ m.wire ++ rest, short⟩) enough cfg flow rfl
      first (by simp) (by simpa [Skippable] using skippable)
    rw [length_append, length_singleton] at walks
    apply walks.weaken
    rintro walked ⟨size, set⟩
    rw [set, announced_last isOpt]
  · intro later once
    have all : ∀ r ∈ m.additionals.dropLast, Skippable r := by
      rw [split, dropLast_append_of_ne_nil (by simp)]
      intro r member
      exact (mem_append.mp member).elim (skippable r) (later r)
    have walks := processResponse_at (p := ⟨start ++ m.wire ++ rest, short⟩) enough cfg flow rfl
      (append_nil _).symm (by simp [split]) all
    apply walks.weaken
    rintro walked ⟨size, set⟩
    have last := announced_none (announced size (before ++ [opt])) once
    rw [set, split, append_cons, announced, foldl_append]
    exact last.trans (announced_last isOpt)

/-- `a.`, and a pointer to it. -/
def letterName : Name := ⟨[[0x61]], .root, by decide⟩

def pointerName : Name := ⟨[], .pointer 12, by decide⟩

def rootName : Name := ⟨[], .root, by decide⟩

lemma no_rdata_short : ([] : Bytes).length < 65536 := by decide

/-- An OPT record for payloads of 4096 bytes. -/
def opt4096 : Record := ⟨rootName, 41, 4096, 0, [], no_rdata_short⟩

def glueRecord : Record := ⟨pointerName, 1, 1, 300, [192, 0, 2, 1], by decide⟩

/-- A text of 191 letters. -/
def textRecord : Record :=
  ⟨pointerName, 16, 1, 300, 191 :: List.replicate 191 0x61, by decide +kernel⟩

/-- A question, and an additional record before an OPT record. -/
def twoAdditionals (r : Record) : Response := ⟨[⟨letterName, 1, 1⟩], [], [], [r, opt4096], by simp⟩

def idleSettings : Settings := ⟨0, false, false, false, 5, 0⟩

def emptyDnsFlow : DnsFlow :=
  ⟨0, 0, 0, [], ⟨List.replicate 4 0, []⟩, ⟨List.replicate 64 0, []⟩, [], []⟩

theorem opt_after_glue_reached :
    (processResponse ⟨List.replicate 12 0 ++ (twoAdditionals glueRecord).wire ++ [], by decide⟩ 100
        idleSettings (twoAdditionals glueRecord).header (List.replicate 12 (0 : UInt8)).length
        emptyDnsFlow).Yields
      (List.replicate 12 0 ++ (twoAdditionals glueRecord).wire ++ []).length
      fun walked => walked.2.edns0UdpPayloadSize = 4096 :=
  (opt_record_reached (twoAdditionals glueRecord) (List.replicate 12 0) [] (by decide) [glueRecord]
    [] opt4096 rfl rfl (by decide) idleSettings emptyDnsFlow 100 (by decide)).2 (by decide)
    (by decide)

/-- After a text of 192 bytes the walk misses the OPT record. -/
theorem opt_after_text_missed :
    (processResponse
        ⟨List.replicate 12 0 ++ (twoAdditionals textRecord).wire ++ [], by decide +kernel⟩ 300
        idleSettings (twoAdditionals textRecord).header 12 emptyDnsFlow).val.map
      (fun walked => walked.2.edns0UdpPayloadSize) = some 0 := by
  decide +kernel

end Ndpi.Guarantees.DnsOpt
