import Mathlib.Control.Monad.Basic
import StubDns.Proofs.Exchange.Buffers
import StubDns.Proofs.Reach

/-! What is read from a datagram is read again when more bytes follow it. So a datagram that was cut
anywhere is answered as the whole one is, or not at all. -/
namespace StubDns

theorem Bytes.HoldsAt.append_right {message part : Bytes} {position : Nat}
    (h : message.HoldsAt position part) (more : Bytes) :
    (message ++ more).HoldsAt position part := by
  obtain ⟨before, after, rfl, rfl⟩ := holdsAt_iff.mp h
  exact holdsAt_iff.mpr ⟨before, after ++ more, List.append_assoc .., rfl⟩

/-- The same place in a message that goes on. -/
def Cursor.extend (cursor : Cursor) (more : Bytes) : Cursor :=
  ⟨cursor.message ++ more, cursor.position⟩

namespace Reading
variable {α β : Type} {first : Reading α} {next : α → Reading β}

/-- Where the reading succeeds, more bytes behind the message change nothing about it. -/
def Stable (reading : Reading α) : Prop :=
  ∀ cursor value moved, reading.run cursor = .ok value moved →
    ∀ more, reading.run (cursor.extend more) = .ok value (moved.extend more)

theorem stable_pure (value : α) : Stable (pure value) := by
  intro cursor found moved h more
  obtain ⟨rfl, rfl⟩ := run_pure_ok_iff.mp h
  rfl

theorem Stable.bind (h : first.Stable) (hnext : ∀ value, (next value).Stable) :
    (first >>= next).Stable := by
  intro cursor value moved hrun more
  obtain ⟨found, middle, hfirst, hrest⟩ := run_bind_ok_iff.mp hrun
  exact run_bind_ok_iff.mpr ⟨found, _, h _ _ _ hfirst more, hnext found _ _ _ hrest more⟩

theorem stable_take (count : Nat) : (take count).Stable := by
  intro cursor part moved h more
  obtain ⟨hlen, hfaces, rfl⟩ := take_ok_iff.mp h
  exact take_ok_iff.mpr ⟨hlen, hfaces.append_right more, rfl⟩

theorem stable_uint16 : uint16.Stable := (stable_take 2).bind fun _ => stable_pure _

theorem stable_uint32 : uint32.Stable := (stable_take 4).bind fun _ => stable_pure _

theorem stable_position : position.Stable := by
  intro cursor value moved h more
  obtain ⟨rfl, rfl⟩ := EStateM.Result.ok.inj h
  rfl

theorem stable_skipName : skipName.Stable := by
  intro cursor done moved h more
  obtain ⟨name, hname, hfaces, rfl⟩ := skipName_ok_iff.mp h
  exact skipName_ok_iff.mpr ⟨name, hname, hfaces.append_right more, rfl⟩

end Reading

theorem RecordHeader.stable_read : read.Stable :=
  Reading.stable_uint16.bind fun _ => Reading.stable_uint16.bind fun _ =>
    Reading.stable_uint32.bind fun _ => Reading.stable_uint16.bind fun _ => Reading.stable_pure _

namespace Record
variable {α : Type}

theorem stable_read : read.Stable :=
  Reading.stable_skipName.bind fun _ => RecordHeader.stable_read.bind fun _ =>
    Reading.stable_position.bind fun _ => (Reading.stable_take _).bind fun _ =>
      Reading.stable_pure _

/-- The walk over the records stops where it stopped before. -/
theorem stable_first (pick : Record → Option α) (count : Nat) : (first pick count).Stable := by
  induction count with
  | zero => exact Reading.stable_pure none
  | succ count ih =>
    rw [first]
    apply stable_read.bind
    intro record
    cases pick record with
    | some value => exact Reading.stable_pure _
    | none => exact ih

end Record

namespace Name
variable {message : Bytes} {position hops : Nat} {labels : List Bytes}

/-- A name means in a message that goes on what it means in the message. -/
theorem Denotes.append_right (h : Denotes message position labels hops) (more : Bytes) :
    Denotes (message ++ more) position labels hops := by
  induction h with
  | root hheld => exact .root (hheld.append_right more)
  | label hpos hlt hlen hheld _ ih => exact .label hpos hlt hlen (hheld.append_right more) ih
  | pointer hhigh hheld htarget _ ih =>
    have hinside := Nat.lt_of_lt_of_le htarget (Nat.le_add_right message.length more.length)
    rw [← List.length_append] at hinside
    exact .pointer hhigh (hheld.append_right more) hinside ih

theorem Legible.append_right (h : Legible message position labels) (more : Bytes) :
    Legible (message ++ more) position labels := by
  obtain ⟨hops, hdenotes, hsome, hhops, hcharge⟩ := h
  exact ⟨hops, hdenotes.append_right more, hsome, hhops, hcharge⟩

end Name

namespace Response
variable {α : Type} {query response : Bytes} {id : UInt16} {pick : Record → Option α} {value : α}
  {wanted other : RecordType} {capacity size : Nat}

theorem reading_ne_noMatchingRecord {read : Reading α} {cursor : Cursor} :
    reading read cursor ≠ .error (.noMatchingRecord other) := by
  unfold reading
  split <;> exact nofun

theorem answers_append_right {header : Header} {cursor : Cursor}
    (h : answers query response id = .ok (header, cursor)) (more : Bytes) :
    answers query (response ++ more) id = .ok (header, cursor.extend more) := by
  obtain ⟨hreplies, hheader, question, hquestion, hheld, hsent, rfl⟩ := answers_ok_iff.mp h
  exact answers_ok_iff.mpr ⟨hreplies, hheader.append_right more, question, hquestion,
    hheld.append_right more, hsent, rfl⟩

/-- A datagram that does not pass is not refused for want of a record. -/
theorem answers_ne_noMatchingRecord :
    answers query response id ≠ .error (.noMatchingRecord other) := by
  intro h
  simp only [answers, throw_if_error_iff, except_bind_error_iff, reading_ne_noMatchingRecord,
    reduceCtorEq, and_false, false_or] at h
  obtain ⟨_, _, _, _, _, _, _, _, _, _, hpure⟩ := h
  cases hpure

/-- The walk over the records behind the question comes to its end, and `found` is what `pick` has
taken on it. -/
def Settles (pick : Record → Option α) (query response : Bytes) (id : UInt16) (found : Option α) :
    Prop :=
  ∃ header cursor moved, answers query response id = .ok (header, cursor) ∧
    (Record.first pick header.ancount.toNat).run cursor = .ok found moved

theorem Settles.append_right {found : Option α} (h : Settles pick query response id found)
    (more : Bytes) : Settles pick query (response ++ more) id found := by
  obtain ⟨header, cursor, moved, hanswers, hfirst⟩ := h
  exact ⟨header, _, _, answers_append_right hanswers more,
    Record.stable_first pick _ _ _ _ hfirst more⟩

theorem find_ok_iff_settles :
    find pick wanted query response id = .ok value ↔
      Settles pick query response id (some value) := by
  rw [find, except_bind_ok_iff]
  constructor
  · rintro ⟨⟨header, cursor⟩, hanswers, hpicked⟩
    obtain ⟨⟨found, moved⟩, hreading, hfound⟩ := except_bind_ok_iff.mp hpicked
    cases found with
    | none => cases hfound
    | some found =>
      cases hfound
      exact ⟨header, cursor, moved, hanswers, reading_ok_iff.mp hreading⟩
  · rintro ⟨header, cursor, moved, hanswers, hfirst⟩
    exact ⟨_, hanswers, except_bind_ok_iff.mpr ⟨_, reading_ok_iff.mpr hfirst, rfl⟩⟩

/-- Only a walk to the end of the records finds that none of them serves. -/
theorem find_noMatchingRecord_iff :
    find pick wanted query response id = .error (.noMatchingRecord other) ↔
      wanted = other ∧ Settles pick query response id none := by
  rw [find, except_bind_error_iff, or_iff_right answers_ne_noMatchingRecord]
  constructor
  · rintro ⟨⟨header, cursor⟩, hanswers, hpicked⟩
    obtain ⟨⟨found, moved⟩, hreading, hfound⟩ :=
      (except_bind_error_iff.mp hpicked).resolve_left reading_ne_noMatchingRecord
    cases found with
    | some found => cases hfound
    | none =>
      cases hfound
      exact ⟨rfl, header, cursor, moved, hanswers, reading_ok_iff.mp hreading⟩
  · rintro ⟨rfl, header, cursor, moved, hanswers, hfirst⟩
    exact ⟨_, hanswers, except_bind_error_iff.mpr (.inr ⟨_, reading_ok_iff.mpr hfirst, rfl⟩)⟩

theorem find_append_right (h : find pick wanted query response id = .ok value) (more : Bytes) :
    find pick wanted query (response ++ more) id = .ok value :=
  find_ok_iff_settles.mpr ((find_ok_iff_settles.mp h).append_right more)

theorem find_none_append_right
    (h : find pick wanted query response id = .error (.noMatchingRecord other)) (more : Bytes) :
    find pick wanted query (response ++ more) id = .error (.noMatchingRecord other) := by
  obtain ⟨hwanted, hsettles⟩ := find_noMatchingRecord_iff.mp h
  exact find_noMatchingRecord_iff.mpr ⟨hwanted, hsettles.append_right more⟩

theorem name_append_right {room : Nat} {out : Buffer capacity}
    (h : (Response.name query response id out).1 = .ok size) (hroom : 256 ≤ room)
    (other : Buffer room) (more : Bytes) :
    (Response.name query (response ++ more) id other).1 = .ok size ∧
      (Response.name query (response ++ more) id other).2.bytes.take size =
        (Response.name query response id out).2.bytes.take size := by
  obtain ⟨hcapacity, wire, place, labels, hnamed, hlegible, rfl⟩ := name_ok_iff.mp h
  have hfind := find_nameStart_ok_iff.mpr ⟨wire, place, hnamed, rfl⟩
  obtain ⟨_, htext⟩ := name_of_find_ok hfind hlegible hcapacity out
  obtain ⟨hsize, hlonger⟩ := name_of_find_ok (find_append_right hfind more)
    (hlegible.append_right more) hroom other
  exact ⟨hsize, hlonger.trans htext.symm⟩

/-- A name that cannot be decoded is another matter than no pointer record. -/
theorem find_of_name_noMatchingRecord {out : Buffer capacity}
    (h : (Response.name query response id out).1 = .error (.noMatchingRecord other)) :
    find Record.nameStart? .ptr query response id = .error (.noMatchingRecord other) := by
  cases hfind : find Record.nameStart? .ptr query response id with
  | error reason =>
    rw [name_of_find_error hfind] at h
    exact congrArg Except.error (Except.error.inj h)
  | ok start =>
    rw [Response.name, hfind] at h
    dsimp only at h
    cases hcopy : (Name.copy response start out).1 with
    | error reason =>
      rw [hcopy] at h
      cases h
    | ok count =>
      rw [hcopy] at h
      cases h

/-- What `part` is answered with, and that it has no matching record, is true of `whole`. -/
structure Confirms (query : Bytes) (id : UInt16) (whole part : Bytes) : Prop where
  address : ∀ found, Response.address query part id = .ok found →
    Response.address query whole id = .ok found
  name : ∀ {capacity room : Nat} (out : Buffer capacity) (other : Buffer room) (size : Nat),
    256 ≤ room → (Response.name query part id out).1 = .ok size →
      (Response.name query whole id other).1 = .ok size ∧
        (Response.name query whole id other).2.bytes.take size =
          (Response.name query part id out).2.bytes.take size
  noAddress : ∀ wanted, Response.address query part id = .error (.noMatchingRecord wanted) →
    Response.address query whole id = .error (.noMatchingRecord wanted)
  noName : ∀ {capacity room : Nat} (out : Buffer capacity) (other : Buffer room) wanted,
    (Response.name query part id out).1 = .error (.noMatchingRecord wanted) →
      (Response.name query whole id other).1 = .error (.noMatchingRecord wanted)

theorem confirms_append_right (query : Bytes) (id : UInt16) (response more : Bytes) :
    Confirms query id (response ++ more) response where
  address _ h := find_append_right h more
  name _ other _ hroom h := name_append_right h hroom other more
  noAddress _ h := find_none_append_right h more
  noName _ other _ h := by
    rw [name_of_find_error (find_none_append_right (find_of_name_noMatchingRecord h) more)]

/-- `part` is answered as `whole` is, or it is rejected. -/
structure SameOrRejected (query : Bytes) (id : UInt16) (whole part : Bytes) : Prop where
  address : Response.address query part id = Response.address query whole id ∨
    ∃ reason, Response.address query part id = .error reason
  name : ∀ {capacity room : Nat} (out : Buffer capacity) (other : Buffer room), 256 ≤ room →
    (∃ size, (Response.name query part id out).1 = .ok size ∧
      (Response.name query whole id other).1 = .ok size ∧
        (Response.name query part id out).2.bytes.take size =
          (Response.name query whole id other).2.bytes.take size) ∨
    ∃ reason, (Response.name query part id out).1 = .error reason

theorem Confirms.sameOrRejected {whole part : Bytes} (h : Confirms query id whole part) :
    SameOrRejected query id whole part where
  address := by
    cases haddress : Response.address query part id with
    | error reason => exact .inr ⟨reason, rfl⟩
    | ok found => exact .inl (h.address found haddress).symm
  name out other hroom := by
    cases hname : (Response.name query part id out).1 with
    | error reason => exact .inr ⟨reason, rfl⟩
    | ok size =>
      obtain ⟨hsize, htext⟩ := h.name out other size hroom hname
      exact .inl ⟨size, rfl, hsize, htext.symm⟩

theorem sameOrRejected_take (query : Bytes) (id : UInt16) (whole : Bytes) (count : Nat) :
    SameOrRejected query id whole (whole.take count) := by
  have hconfirms := confirms_append_right query id (whole.take count) (whole.drop count)
  rw [List.take_append_drop] at hconfirms
  exact hconfirms.sameOrRejected

end Response

/-- Bytes behind a datagram change nothing about what is found in it, nor about there being no
matching record in it. So a datagram that was cut, be it by the receive buffer, is answered as the
whole one is or rejected. -/
theorem Response.answer_survives_cut (query : Bytes) (id : UInt16) :
    (∀ response more : Bytes, Confirms query id (response ++ more) response) ∧
    (∀ (whole : Bytes) (count : Nat), SameOrRejected query id whole (whole.take count)) ∧
    (∀ (response : Buffer responseCapacity) (whole : Bytes) (size : Nat), size ≤ whole.length →
      SameOrRejected query id whole (Exchange.datagram (response.overwrite 0 whole) size)) := by
  refine ⟨confirms_append_right query id, sameOrRejected_take query id, ?_⟩
  intro response whole size hsize
  rw [Exchange.datagram_overwrite_of_le response hsize]
  exact sameOrRejected_take query id whole _

/-- Replies with an address, with an alias only and with a name come to the same with an uncounted
address record behind them. A reply that is cut in its one record is rejected. -/
theorem Response.uncounted_record_ignored :
    let start (type : UInt8) : Bytes :=
      [0, 7, 129, 128, 0, 1, 0, 1, 0, 0, 0, 0, 1, 97, 0, 0, type, 0, 1]
    let record (type : UInt8) (data : Bytes) : Bytes :=
      [192, 12, 0, type, 0, 1, 0, 0, 0, 60, 0, 4] ++ data
    let addressQuery : Bytes := [0, 7, 1, 0, 0, 1, 0, 0, 0, 0, 0, 0, 1, 97, 0, 0, 1, 0, 1]
    let nameQuery : Bytes := [0, 7, 1, 0, 0, 1, 0, 0, 0, 0, 0, 0, 1, 97, 0, 0, 12, 0, 1]
    let other := record 1 [10, 0, 0, 1]
    let found := start 1 ++ record 1 [192, 0, 2, 7]
    let aliased := start 1 ++ record 5 [1, 98, 192, 12]
    let named := start 12 ++ record 12 [1, 98, 192, 12]
    let cut := Exchange.datagram ((Buffer.zero responseCapacity).overwrite 0 found) 34
    Response.address addressQuery (found ++ other) 7 = .ok ⟨192, 0, 2, 7⟩ ∧
    Response.address addressQuery (aliased ++ other) 7 = .error (.noMatchingRecord .a) ∧
    (Response.name nameQuery (named ++ other) 7 (Buffer.zero 300)).1 = .ok 3 ∧
    (Response.name nameQuery (named ++ other) 7 (Buffer.zero 300)).2.bytes.take 3 = [98, 46, 97] ∧
    34 ≤ found.length ∧ SameOrRejected addressQuery 7 found cut ∧
    Response.address addressQuery cut 7 = .error (.malformed .truncated) := by
  intro start record addressQuery nameQuery other found aliased named cut
  have hname : (Response.name nameQuery named 7 (Buffer.zero 256)).1 = .ok 3 := by decide +kernel
  obtain ⟨hsize, htext⟩ := ((answer_survives_cut nameQuery 7).1 named other).name (Buffer.zero 256)
    (Buffer.zero 300) 3 (by decide) hname
  refine ⟨?_, ?_, hsize, htext.trans (by decide +kernel), by decide, ?_, by decide +kernel⟩
  · exact ((answer_survives_cut addressQuery 7).1 found other).address _ (by decide +kernel)
  · exact ((answer_survives_cut addressQuery 7).1 aliased other).noAddress _ (by decide +kernel)
  · exact (answer_survives_cut addressQuery 7).2.2 _ found 34 (by decide)

end StubDns
