import StubDns.Proofs.Reply

/-! How far the name of a pointer record reaches. The record says where the name starts, but it is
the message that bounds it: a name that the record's data cuts short goes on in what follows. -/
namespace StubDns

theorem WireName.unique_at {message name other : Bytes} {position : Nat} (h : WireName name)
    (h' : WireName other) (hname : message.HoldsAt position name)
    (hother : message.HoldsAt position other) : name = other := by
  obtain ⟨after, hafter⟩ := hname.drop_eq
  obtain ⟨tail, htail⟩ := hother.drop_eq
  exact h.prefix_free h' (hafter.symm.trans htail)

namespace Response
variable {query response : Bytes} {id : UInt16} {wire : WireRecord} {place : Nat}

/-- `wire` at `place` is the record that a name is taken from: the first pointer record behind the
question of a datagram that passes for an answer. -/
def NamedBy (query response : Bytes) (id : UInt16) (wire : WireRecord) (place : Nat) : Prop :=
  ∃ header cursor, answers query response id = .ok (header, cursor) ∧
    Record.FirstAt WireRecord.IsPointer response cursor.position header.ancount.toNat wire place

theorem NamedBy.holdsAt_data (h : NamedBy query response id wire place) :
    response.HoldsAt (wire.dataStart place) wire.data := by
  obtain ⟨_, _, _, _, _, _, _, hheld, rfl⟩ := h
  exact WireRecord.holdsAt_data (Bytes.holdsAt_append.mp hheld).2

theorem message_of_answers {header : Header} {cursor : Cursor}
    (h : answers query response id = .ok (header, cursor)) : cursor.message = response := by
  obtain ⟨_, _, _, _, _, _, rfl⟩ := answers_ok_iff.mp h
  rfl

theorem find_nameStart_ok_iff {start : Nat} :
    find Record.nameStart? .ptr query response id = .ok start ↔
      ∃ wire place, NamedBy query response id wire place ∧ start = wire.dataStart place := by
  rw [find_ok_iff_firstAt fun _ _ => WireRecord.isSome_nameStart?_readAt]
  constructor
  · rintro ⟨header, cursor, hanswers, wire, place, hfirst, hstart⟩
    rw [message_of_answers hanswers] at hfirst
    exact ⟨wire, place, ⟨header, cursor, hanswers, hfirst⟩,
      (WireRecord.nameStart?_readAt_eq_some.mp hstart).2⟩
  · rintro ⟨wire, place, ⟨header, cursor, hanswers, hfirst⟩, hstart⟩
    have hpointer : wire.IsPointer := by
      obtain ⟨_, _, _, hpointer, _⟩ := hfirst
      exact hpointer
    refine ⟨header, cursor, hanswers, wire, place, ?_,
      WireRecord.nameStart?_readAt_eq_some.mpr ⟨hpointer, hstart⟩⟩
    rwa [message_of_answers hanswers]

/-- Whether a name is accepted does not depend on the size of the record's data. -/
theorem name_ok_iff {capacity size : Nat} {out : Buffer capacity} :
    (Response.name query response id out).1 = .ok size ↔
      256 ≤ capacity ∧ ∃ wire place labels, NamedBy query response id wire place ∧
        Name.Legible response (wire.dataStart place) labels ∧ size = (Name.text labels).length := by
  constructor
  · intro h
    cases hfind : find Record.nameStart? .ptr query response id with
    | error reason =>
      rw [name_of_find_error hfind] at h
      cases h
    | ok start =>
      obtain ⟨wire, place, hnamed, rfl⟩ := find_nameStart_ok_iff.mp hfind
      rw [Response.name, hfind] at h
      cases hcopy : (Name.copy response (wire.dataStart place) out).1 with
      | error reason =>
        simp only [hcopy] at h
        cases h
      | ok count =>
        simp only [hcopy] at h
        obtain rfl : count = size := Except.ok.inj h
        obtain ⟨hcapacity, labels, hlegible, hsize⟩ := Name.legible_of_copy hcopy
        exact ⟨hcapacity, wire, place, labels, hnamed, hlegible, hsize⟩
  · rintro ⟨hcapacity, wire, place, labels, hnamed, hlegible, rfl⟩
    have hfind := find_nameStart_ok_iff.mpr ⟨wire, place, hnamed, rfl⟩
    exact (name_of_find_ok hfind hlegible hcapacity out).1

/-- The name at a record's data ends within the data just when the data alone holds a whole name. -/
theorem length_le_data_iff (hnamed : NamedBy query response id wire place) {name : Bytes}
    (hname : WireName name) (hheld : response.HoldsAt (wire.dataStart place) name) :
    name.length ≤ wire.data.length ↔ ∃ size, Name.extent wire.data = .ok size := by
  have hdata := hnamed.holdsAt_data
  constructor
  · intro hle
    obtain ⟨after, hafter⟩ := hheld.drop_eq
    have htake := (Bytes.holdsAt_iff_take.mp hdata).2
    rw [hafter, List.take_append, List.take_of_length_le hle] at htake
    rw [← htake]
    exact ⟨name.length, hname.extent_append _⟩
  · rintro ⟨size, hextent⟩
    obtain ⟨own, after, hown, hwire, _⟩ := WireName.extent_eq_ok_iff.mp hextent
    rw [hown] at hdata
    rw [hname.unique_at hwire hheld (Bytes.holdsAt_append.mp hdata).1, hown, List.length_append]
    exact Nat.le_add_right _ _

/-- A name is accepted wherever the first pointer record's data starts one that the message can
spell, and is then that name. It ends within the record's data just when that data alone holds a
whole name; where the data cuts it short, it is taken from the bytes that follow. -/
theorem name_within_data_iff (query response : Bytes) (id : UInt16) (capacity : Nat)
    (out : Buffer capacity) (size : Nat) :
    ((Response.name query response id out).1 = .ok size ↔
      256 ≤ capacity ∧ ∃ wire place labels, NamedBy query response id wire place ∧
        Name.Legible response (wire.dataStart place) labels ∧
          size = (Name.text labels).length) ∧
    (∀ wire place labels, NamedBy query response id wire place →
      Name.Legible response (wire.dataStart place) labels →
        ∃ name, WireName name ∧ response.HoldsAt (wire.dataStart place) name ∧
          (name.length ≤ wire.data.length ↔ ∃ within, Name.extent wire.data = .ok within)) := by
  refine ⟨name_ok_iff, ?_⟩
  rintro wire place labels hnamed ⟨_, hlabels, _⟩
  obtain ⟨name, hname, hheld⟩ := hlabels.exists_wireName
  exact ⟨name, hname, hheld, length_le_data_iff hnamed hname hheld⟩

/-- A pointer record without data takes its name from the owner of the next record. -/
theorem name_from_next_record :
    let question : Question := .name ⟨192, 0, 2, 7⟩
    let header : Header := { id := 7, flags := 0x8180, qdcount := 1, ancount := 2 }
    let pointer : WireRecord := ⟨[192, 12], .pointer (by decide), ⟨12, 1, 60, 0⟩, [], rfl⟩
    let next : WireRecord := ⟨[4, 101, 118, 105, 108, 0],
      @WireName.label 4 [101, 118, 105, 108] [0] (by decide) (by decide) rfl .root,
        ⟨1, 1, 60, 4⟩, [10, 0, 0, 1], rfl⟩
    let datagram := reply header (question.bytes 7) [pointer, next] []
    (Response.name (question.bytes 7) datagram 7 (Buffer.zero 256)).1 = .ok 4 ∧
    (Response.name (question.bytes 7) datagram 7 (Buffer.zero 256)).2.bytes.take 4 =
      [101, 118, 105, 108] ∧
    NamedBy (question.bytes 7) datagram 7 pointer 40 ∧
    ∀ name, WireName name → datagram.HoldsAt (pointer.dataStart 40) name →
      ¬ name.length ≤ pointer.data.length := by
  intro question header pointer next datagram
  have hencodable : question.Encodable := by decide +kernel
  have hreplies : header.Replies 7 := ⟨rfl, by decide, rfl, by decide⟩
  have hnamed : NamedBy (question.bytes 7) datagram 7 pointer 40 :=
    ⟨header, _, answers_reply hencodable hreplies, [], by decide, nofun, ⟨rfl, rfl⟩, holdsAt_record,
      rfl⟩
  have hheld : datagram.HoldsAt (pointer.dataStart 40) (Name.wire [[101, 118, 105, 108]]) := by rfl
  have hvalid : Name.ValidLabels [[101, 118, 105, 108]] := by decide
  have hlegible := Name.legible_wire hvalid (by decide) (by decide) hheld
  have hfind := find_nameStart_ok_iff.mpr ⟨pointer, 40, hnamed, rfl⟩
  obtain ⟨hsize, htext⟩ := name_of_find_ok hfind hlegible (Nat.le_refl 256) (Buffer.zero 256)
  refine ⟨hsize, htext, hnamed, ?_⟩
  intro name hname hother
  exact Nat.not_le.mpr hname.length_pos

end Response
end StubDns
