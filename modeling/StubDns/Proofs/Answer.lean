import StubDns.Proofs.Echo
import StubDns.Proofs.Name.Meaning

/-! The records behind the question, and which of them an answer is taken from. -/
namespace StubDns

/-- The fixed part as it stands in a message. -/
def RecordHeader.bytes (header : RecordHeader) : Bytes :=
  Bytes.ofUInt16 header.rtype ++ (Bytes.ofUInt16 header.rclass ++
    (Bytes.ofUInt32 header.ttl ++ Bytes.ofUInt16 header.rdlength))

theorem RecordHeader.length_bytes (header : RecordHeader) : header.bytes.length = 10 := rfl

theorem RecordHeader.read_ok_iff {cursor moved : Cursor} {header : RecordHeader} :
    read.run cursor = .ok header moved ↔
      cursor.Faces header.bytes ∧ moved = cursor.advance 10 := by
  simp only [read, run_bind_ok_iff, Reading.uint16_ok_iff, Reading.uint32_ok_iff, run_pure_ok_iff,
    bytes, Cursor.faces_append, Bytes.length_ofUInt16, Bytes.length_ofUInt32]
  constructor
  · rintro ⟨rtype, _, ⟨htype, rfl⟩, rclass, _, ⟨hclass, rfl⟩, ttl, _, ⟨httl, rfl⟩, rdlength, _,
      ⟨hrdlength, rfl⟩, rfl, rfl⟩
    exact ⟨⟨htype, hclass, httl, hrdlength⟩, rfl⟩
  · rintro ⟨⟨htype, hclass, httl, hrdlength⟩, rfl⟩
    exact ⟨_, _, ⟨htype, rfl⟩, _, _, ⟨hclass, rfl⟩, _, _, ⟨httl, rfl⟩, _, _, ⟨hrdlength, rfl⟩, rfl,
      rfl⟩

/-- A record with its owner name, of which nothing but the grammar matters. -/
structure WireRecord where
  owner : Bytes
  wireName_owner : WireName owner
  header : RecordHeader
  data : Bytes
  length_data : data.length = header.rdlength.toNat

namespace WireRecord

def bytes (wire : WireRecord) : Bytes := wire.owner ++ (wire.header.bytes ++ wire.data)

/-- Where the data is in a message that has the record at `position`. -/
def dataStart (wire : WireRecord) (position : Nat) : Nat := position + wire.owner.length + 10

/-- The record as it is read at `position` of a message. -/
def readAt (wire : WireRecord) (position : Nat) : Record :=
  ⟨wire.header, wire.dataStart position, wire.data⟩

theorem length_bytes (wire : WireRecord) :
    wire.bytes.length = wire.owner.length + 10 + wire.data.length := by
  simp only [bytes, List.length_append, RecordHeader.length_bytes, Nat.add_assoc]

/-- The data of a record stands where the reader of that record will look for it. -/
theorem holdsAt_data {wire : WireRecord} {message : Bytes} {position : Nat}
    (h : message.HoldsAt position wire.bytes) :
    message.HoldsAt (wire.dataStart position) wire.data := by
  obtain ⟨_, hbehind⟩ := Bytes.holdsAt_append.mp h
  exact (Bytes.holdsAt_append.mp hbehind).2

end WireRecord

namespace Record
variable {α : Type} {cursor moved : Cursor} {record : Record} {count : Nat}

theorem position_run (cursor : Cursor) :
    Reading.position.run cursor = .ok cursor.position cursor := rfl

theorem read_ok_iff : read.run cursor = .ok record moved ↔
    ∃ wire : WireRecord, cursor.Faces wire.bytes ∧ record = wire.readAt cursor.position ∧
      moved = cursor.advance wire.bytes.length := by
  simp only [read, run_bind_ok_iff, Reading.skipName_ok_iff, RecordHeader.read_ok_iff,
    position_run, Reading.take_ok_iff, run_pure_ok_iff]
  constructor
  · rintro ⟨_, _, ⟨owner, howner, hfaces, rfl⟩, header, _, ⟨hheader, rfl⟩, start, _, hstart, data, _,
      ⟨hlen, hdata, rfl⟩, rfl, rfl⟩
    obtain ⟨rfl, rfl⟩ := EStateM.Result.ok.inj hstart
    rw [Cursor.advance_advance] at hdata ⊢
    refine ⟨⟨owner, howner, header, data, hlen⟩, ?_, rfl, ?_⟩
    · rw [WireRecord.bytes, Cursor.faces_append, Cursor.faces_append, Cursor.advance_advance]
      exact ⟨hfaces, hheader, hdata⟩
    · rw [WireRecord.length_bytes, hlen, Cursor.advance_advance]
  · rintro ⟨wire, hfaces, rfl, rfl⟩
    rw [WireRecord.bytes, Cursor.faces_append, Cursor.faces_append, Cursor.advance_advance] at hfaces
    obtain ⟨howner, hheader, hdata⟩ := hfaces
    refine ⟨(), _, ⟨wire.owner, wire.wireName_owner, howner, rfl⟩, wire.header, _, ⟨hheader, rfl⟩,
      _, _, rfl, wire.data, _, ⟨wire.length_data, ?_, rfl⟩, rfl, ?_⟩
    · rwa [Cursor.advance_advance]
    · rw [WireRecord.length_bytes, wire.length_data, Cursor.advance_advance,
        Cursor.advance_advance, Nat.add_assoc]

/-- `wire` is the first wanted one of `count` records that stand side by side from `position` on,
and it stands at `place`. -/
def FirstAt (wanted : WireRecord → Prop) (message : Bytes) (position count : Nat)
    (wire : WireRecord) (place : Nat) : Prop :=
  ∃ before : List WireRecord, before.length < count ∧ (∀ other ∈ before, ¬ wanted other) ∧
    wanted wire ∧ message.HoldsAt position (before.flatMap WireRecord.bytes ++ wire.bytes) ∧
      place = position + (before.flatMap WireRecord.bytes).length

variable {wanted : WireRecord → Prop} {pick : Record → Option α} {value : α}

theorem firstAt_head {message : Bytes} {position : Nat} {wire : WireRecord}
    (hwanted : wanted wire) (h : message.HoldsAt position wire.bytes) :
    FirstAt wanted message position (count + 1) wire position :=
  ⟨[], Nat.succ_pos _, nofun, hwanted, h, rfl⟩

theorem firstAt_cons {head wire : WireRecord} {place : Nat} (hunwanted : ¬ wanted head)
    (hhead : cursor.Faces head.bytes) (h : FirstAt wanted cursor.message
      (cursor.position + head.bytes.length) count wire place) :
    FirstAt wanted cursor.message cursor.position (count + 1) wire place := by
  obtain ⟨before, hlt, hbefore, hwanted, hheld, rfl⟩ := h
  refine ⟨head :: before, Nat.succ_lt_succ hlt, List.forall_mem_cons.mpr ⟨hunwanted, hbefore⟩,
    hwanted, ?_, ?_⟩
  · rw [List.flatMap_cons, List.append_assoc]
    exact Bytes.holdsAt_append.mpr ⟨hhead, hheld⟩
  · rw [List.flatMap_cons, List.length_append, Nat.add_assoc]

theorem run_first_of_faces {wire : WireRecord} (h : cursor.Faces wire.bytes) :
    (first pick (count + 1)).run cursor =
      match pick (wire.readAt cursor.position) with
      | some value => .ok (some value) (cursor.advance wire.bytes.length)
      | none => (first pick count).run (cursor.advance wire.bytes.length) := by
  rw [first, EStateM.run_bind, read_ok_iff.mpr ⟨wire, h, rfl, rfl⟩]
  cases hpick : pick (wire.readAt cursor.position) with
  | none => simp only [hpick]
  | some value =>
    simp only [hpick]
    rfl

theorem firstAt_of_first
    (hpick : ∀ wire position, (pick (wire.readAt position)).isSome ↔ wanted wire)
    (h : (first pick count).run cursor = .ok (some value) moved) :
    ∃ wire place, FirstAt wanted cursor.message cursor.position count wire place ∧
      pick (wire.readAt place) = some value := by
  induction count generalizing cursor with
  | zero => cases (run_pure_ok_iff.mp h).1
  | succ count ih =>
    obtain ⟨_, _, hread, _⟩ := run_bind_ok_iff.mp h
    obtain ⟨head, hhead, rfl, rfl⟩ := read_ok_iff.mp hread
    rw [run_first_of_faces hhead] at h
    cases hfound : pick (head.readAt cursor.position) with
    | some found =>
      rw [hfound] at h
      have hvalue : found = value := Option.some.inj (EStateM.Result.ok.inj h).1
      have hwanted : wanted head := by
        rw [← hpick head cursor.position, hfound]
        rfl
      rw [hvalue] at hfound
      exact ⟨head, cursor.position, firstAt_head hwanted hhead, hfound⟩
    | none =>
      rw [hfound] at h
      obtain ⟨wire, place, hfirst, hvalue⟩ := ih h
      have hunwanted : ¬ wanted head := by
        rw [← hpick head cursor.position, hfound]
        exact Bool.false_ne_true
      exact ⟨wire, place, firstAt_cons hunwanted hhead hfirst, hvalue⟩

/-- The walk steps over records that are not wanted. -/
theorem run_first_unwanted
    (hpick : ∀ wire position, (pick (wire.readAt position)).isSome ↔ wanted wire)
    {before : List WireRecord} (hbefore : ∀ other ∈ before, ¬ wanted other)
    (hheld : cursor.Faces (before.flatMap WireRecord.bytes)) :
    (first pick (before.length + count)).run cursor =
      (first pick count).run (cursor.advance (before.flatMap WireRecord.bytes).length) := by
  induction before generalizing cursor with
  | nil =>
    rw [List.length_nil, Nat.zero_add]
    rfl
  | cons head before ih =>
    obtain ⟨hunwanted, hbefore⟩ := List.forall_mem_cons.mp hbefore
    rw [← hpick head cursor.position, Option.not_isSome_iff_eq_none] at hunwanted
    rw [List.flatMap_cons] at hheld
    obtain ⟨hhead, hbehind⟩ := Cursor.faces_append.mp hheld
    have hcount : (head :: before).length + count = before.length + count + 1 := by
      rw [List.length_cons]
      omega
    rw [hcount, run_first_of_faces hhead, hunwanted]
    dsimp only
    rw [ih hbefore hbehind, Cursor.advance_advance, List.flatMap_cons, List.length_append]

theorem first_of_firstAt
    (hpick : ∀ wire position, (pick (wire.readAt position)).isSome ↔ wanted wire)
    {wire : WireRecord} {place : Nat}
    (h : FirstAt wanted cursor.message cursor.position count wire place)
    (hvalue : pick (wire.readAt place) = some value) :
    ∃ moved, (first pick count).run cursor = .ok (some value) moved := by
  obtain ⟨before, hlt, hbefore, _, hheld, rfl⟩ := h
  obtain ⟨hfront, hwire⟩ := Bytes.holdsAt_append.mp hheld
  obtain ⟨more, rfl⟩ : ∃ more, count = before.length + (more + 1) := by
    refine ⟨count - before.length - 1, ?_⟩
    omega
  let reached := cursor.advance (before.flatMap WireRecord.bytes).length
  have hfaces : reached.Faces wire.bytes := hwire
  have hfound : pick (wire.readAt reached.position) = some value := hvalue
  refine ⟨reached.advance wire.bytes.length, ?_⟩
  rw [run_first_unwanted hpick hbefore hfront, run_first_of_faces hfaces, hfound]

theorem run_first_at_end (h : cursor.rest = []) :
    (first pick (count + 1)).run cursor = .error .truncated cursor := by
  have hread : read.run cursor = .error .truncated cursor := by
    rw [read, EStateM.run_bind, Reading.run_skipName, h, Name.extent]
  rw [first, EStateM.run_bind, hread]

/-- The walk comes to the first wanted record, whatever stands behind it. -/
theorem first_some_iff
    (hpick : ∀ wire position, (pick (wire.readAt position)).isSome ↔ wanted wire) :
    (∃ moved, (first pick count).run cursor = .ok (some value) moved) ↔
      ∃ wire place, FirstAt wanted cursor.message cursor.position count wire place ∧
        pick (wire.readAt place) = some value := by
  constructor
  · rintro ⟨moved, h⟩
    exact firstAt_of_first hpick h
  · rintro ⟨wire, place, hfirst, hvalue⟩
    exact first_of_firstAt hpick hfirst hvalue

theorem address?_eq_some_iff {address : IPv4} : record.address? = some address ↔
    record.header.isOf .a = true ∧ record.data = address.octets := by
  rw [address?, Option.ite_none_right_eq_some]
  constructor
  · rintro ⟨hof, h⟩
    split at h
    · next hdata =>
      rw [hdata, ← Option.some.inj h]
      exact ⟨hof, rfl⟩
    · cases h
  · rintro ⟨hof, hdata⟩
    rw [hdata]
    exact ⟨hof, rfl⟩

end Record

namespace WireRecord

/-- An Internet address record with the four bytes of an address. -/
def IsAddress (wire : WireRecord) : Prop :=
  wire.header.rtype = 1 ∧ wire.header.rclass = 1 ∧ wire.data.length = 4

instance (wire : WireRecord) : Decidable wire.IsAddress :=
  inferInstanceAs (Decidable (_ ∧ _ ∧ _))

/-- An Internet pointer record. -/
def IsPointer (wire : WireRecord) : Prop := wire.header.rtype = 12 ∧ wire.header.rclass = 1

instance (wire : WireRecord) : Decidable wire.IsPointer := inferInstanceAs (Decidable (_ ∧ _))

variable {wire : WireRecord} {position : Nat}

theorem isOf_readAt (wanted : RecordType) : (wire.readAt position).header.isOf wanted = true ↔
    wire.header.rtype = wanted.code ∧ wire.header.rclass = 1 := by
  rw [RecordHeader.isOf, Bool.and_eq_true, beq_iff_eq, beq_iff_eq]
  rfl

theorem address?_readAt_eq_some {address : IPv4} :
    (wire.readAt position).address? = some address ↔
      wire.IsAddress ∧ wire.data = address.octets := by
  rw [Record.address?_eq_some_iff, isOf_readAt]
  constructor
  · rintro ⟨⟨htype, hclass⟩, hdata⟩
    have hsize : wire.data.length = 4 := congrArg List.length hdata
    exact ⟨⟨htype, hclass, hsize⟩, hdata⟩
  · rintro ⟨⟨htype, hclass, _⟩, hdata⟩
    exact ⟨⟨htype, hclass⟩, hdata⟩

theorem isSome_address?_readAt : (wire.readAt position).address?.isSome ↔ wire.IsAddress := by
  rw [Option.isSome_iff_exists]
  constructor
  · rintro ⟨address, h⟩
    exact (address?_readAt_eq_some.mp h).1
  · intro h
    match hdata : wire.data, h.2.2 with
    | [a, b, c, d], _ => exact ⟨⟨a, b, c, d⟩, address?_readAt_eq_some.mpr ⟨h, hdata⟩⟩

theorem nameStart?_readAt_eq_some {start : Nat} :
    (wire.readAt position).nameStart? = some start ↔
      wire.IsPointer ∧ start = wire.dataStart position := by
  rw [Record.nameStart?, Option.ite_none_right_eq_some, isOf_readAt, Option.some.injEq,
    @eq_comm _ _ start]
  rfl

theorem isSome_nameStart?_readAt : (wire.readAt position).nameStart?.isSome ↔ wire.IsPointer := by
  rw [Option.isSome_iff_exists]
  constructor
  · rintro ⟨start, h⟩
    exact (nameStart?_readAt_eq_some.mp h).1
  · intro h
    exact ⟨_, nameStart?_readAt_eq_some.mpr ⟨h, rfl⟩⟩

end WireRecord

namespace Response
variable {α : Type} {question : Question} {sent id : UInt16} {response : Bytes}

/-- `wire` at `place` is the first wanted record among the answers of `response`. -/
def FirstAnswer (wanted : WireRecord → Prop) (query response : Bytes) (id : UInt16)
    (wire : WireRecord) (place : Nat) : Prop :=
  ∃ header : Header, response.HoldsAt 0 header.bytes ∧ header.Replies id ∧
    Record.FirstAt wanted response query.length header.ancount.toNat wire place

/-- What is found comes from the first wanted record behind the datagram's own question, whatever
the query is. -/
theorem find_ok_iff_firstAt {query : Bytes} {pick : Record → Option α} {value : α}
    {wanted : WireRecord → Prop} {wantedType : RecordType}
    (hpick : ∀ wire position, (pick (wire.readAt position)).isSome ↔ wanted wire) :
    find pick wantedType query response id = .ok value ↔
      ∃ header cursor, answers query response id = .ok (header, cursor) ∧ ∃ wire place,
        Record.FirstAt wanted cursor.message cursor.position header.ancount.toNat wire place ∧
          pick (wire.readAt place) = some value := by
  rw [find, except_bind_ok_iff]
  constructor
  · rintro ⟨⟨header, cursor⟩, hanswers, hpicked⟩
    obtain ⟨⟨result, moved⟩, hreading, hresult⟩ := except_bind_ok_iff.mp hpicked
    cases result with
    | none => cases hresult
    | some found =>
      cases hresult
      exact ⟨header, cursor, hanswers,
        (Record.first_some_iff hpick).mp ⟨moved, reading_ok_iff.mp hreading⟩⟩
  · rintro ⟨header, cursor, hanswers, hfirst⟩
    obtain ⟨moved, hrun⟩ := (Record.first_some_iff hpick).mpr hfirst
    exact ⟨_, hanswers, except_bind_ok_iff.mpr ⟨_, reading_ok_iff.mpr hrun, rfl⟩⟩

theorem find_ok_iff (hquestion : question.Encodable) {pick : Record → Option α} {value : α}
    {wanted : WireRecord → Prop} {wantedType : RecordType}
    (hpick : ∀ wire position, (pick (wire.readAt position)).isSome ↔ wanted wire) :
    find pick wantedType (question.bytes sent) response id = .ok value ↔
      Echoes (question.bytes sent) response id ∧ ∃ wire place,
        FirstAnswer wanted (question.bytes sent) response id wire place ∧
          pick (wire.readAt place) = some value := by
  rw [find_ok_iff_firstAt hpick]
  constructor
  · rintro ⟨header, _, hanswers, wire, place, hfirst, hvalue⟩
    obtain ⟨hreplies, hheld, hasked, rfl⟩ := (answers_bytes_iff hquestion).mp hanswers
    exact ⟨echoes_iff.mpr ⟨header, hreplies, hheld, hasked⟩, wire, place,
      ⟨header, hheld, hreplies, hfirst⟩, hvalue⟩
  · rintro ⟨hechoes, wire, place, ⟨header, hheld, hreplies, hfirst⟩, hvalue⟩
    obtain ⟨_, _, _, hasked⟩ := echoes_iff.mp hechoes
    exact ⟨header, _, (answers_bytes_iff hquestion).mpr ⟨hreplies, hheld, hasked, rfl⟩, wire, place,
      hfirst, hvalue⟩

/-- An address is accepted exactly from the first address record of a datagram that echoes the
query. -/
theorem address_ok_iff (hquestion : question.Encodable) {address : IPv4} :
    Response.address (question.bytes sent) response id = .ok address ↔
      Echoes (question.bytes sent) response id ∧ ∃ wire place,
        FirstAnswer WireRecord.IsAddress (question.bytes sent) response id wire place ∧
          wire.data = address.octets := by
  rw [Response.address, find_ok_iff hquestion fun _ _ => WireRecord.isSome_address?_readAt]
  constructor
  · rintro ⟨hechoes, wire, place, hfirst, hvalue⟩
    exact ⟨hechoes, wire, place, hfirst, (WireRecord.address?_readAt_eq_some.mp hvalue).2⟩
  · rintro ⟨hechoes, wire, place, hfirst, hdata⟩
    have hwanted : wire.IsAddress := by
      obtain ⟨_, _, _, _, _, _, hwanted, _⟩ := hfirst
      exact hwanted
    exact ⟨hechoes, wire, place, hfirst, WireRecord.address?_readAt_eq_some.mpr ⟨hwanted, hdata⟩⟩

/-- A name is accepted only from the data of the first pointer record of a datagram that echoes the
query, and it is what stands decoded there. -/
theorem echoes_of_name_ok (hquestion : question.Encodable) {capacity size : Nat}
    {out written : Buffer capacity}
    (h : Response.name (question.bytes sent) response id out = (.ok size, written)) :
    Echoes (question.bytes sent) response id ∧ ∃ wire place,
      FirstAnswer WireRecord.IsPointer (question.bytes sent) response id wire place ∧
        Name.copy response (wire.dataStart place) out = (.ok size, written) := by
  unfold Response.name at h
  split at h
  · cases (Prod.mk.inj h).1
  · next start hstart =>
    obtain ⟨hechoes, wire, place, hfirst, hvalue⟩ :=
      (find_ok_iff hquestion fun _ _ => WireRecord.isSome_nameStart?_readAt).mp hstart
    obtain ⟨_, rfl⟩ := WireRecord.nameStart?_readAt_eq_some.mp hvalue
    refine ⟨hechoes, wire, place, hfirst, ?_⟩
    cases hcopy : Name.copy response (wire.dataStart place) out with
    | mk result copied =>
      rw [hcopy] at h
      cases result with
      | error reason => cases (Prod.mk.inj h).1
      | ok count =>
        obtain ⟨hcount, rfl⟩ := Prod.mk.inj h
        obtain rfl : count = size := Except.ok.inj hcount
        rfl

/-- Whether a name is accepted, and how long it is, does not depend on what the buffer holds. -/
theorem result_name {capacity : Nat} (query response : Bytes) (id : UInt16)
    (out other : Buffer capacity) :
    (Response.name query response id out).1 = (Response.name query response id other).1 := by
  unfold Response.name
  cases find Record.nameStart? .ptr query response id with
  | error reason => rfl
  | ok start =>
    dsimp only
    rw [Name.result_copy response start out other]

end Response
end StubDns
