import StubDns.Proofs.Wire.Placement
import StubDns.Wire.Message

/-! What a reading that succeeds has read: the bytes at its position, and nothing else. -/
namespace StubDns

theorem run_bind_ok_iff {ε σ α β : Type} {first : EStateM ε σ α} {next : α → EStateM ε σ β}
    {s t : σ} {b : β} : (first >>= next).run s = .ok b t ↔
      ∃ a u, first.run s = .ok a u ∧ (next a).run u = .ok b t := by
  rw [EStateM.run_bind]
  constructor
  · intro h
    split at h
    · next a u hfirst => exact ⟨a, u, hfirst, h⟩
    · contradiction
  · rintro ⟨a, u, hfirst, hnext⟩
    rw [hfirst]
    exact hnext

theorem run_pure_ok_iff {ε σ α : Type} {a b : α} {s t : σ} :
    (pure a : EStateM ε σ α).run s = .ok b t ↔ b = a ∧ t = s := by
  rw [EStateM.run_pure, EStateM.Result.ok.injEq, eq_comm, @eq_comm _ s]

theorem run_throw_if_ok_iff {ε σ α : Type} {c : Prop} [Decidable c] {reason : ε}
    {rest : EStateM ε σ α} {s t : σ} {b : α} :
    (if c then throw reason else rest).run s = .ok b t ↔ ¬ c ∧ rest.run s = .ok b t := by
  by_cases h : c
  · rw [if_pos h]
    constructor
    · intro h'
      cases h'
    · intro h'
      exact absurd h h'.1
  · rw [if_neg h]
    constructor
    · intro h'
      exact ⟨h, h'⟩
    · intro h'
      exact h'.2

namespace Cursor

def advance (cursor : Cursor) (count : Nat) : Cursor :=
  { cursor with position := cursor.position + count }

/-- `part` is what the cursor stands before. -/
def Faces (cursor : Cursor) (part : Bytes) : Prop := cursor.message.HoldsAt cursor.position part

variable {cursor : Cursor} {first second : Bytes}

@[simp] theorem message_advance (cursor : Cursor) (count : Nat) :
    (cursor.advance count).message = cursor.message := rfl

@[simp] theorem position_advance (cursor : Cursor) (count : Nat) :
    (cursor.advance count).position = cursor.position + count := rfl

@[simp] theorem advance_advance (cursor : Cursor) (count more : Nat) :
    (cursor.advance count).advance more = cursor.advance (count + more) := by
  simp only [advance, Nat.add_assoc]

theorem faces_append : cursor.Faces (first ++ second) ↔
    cursor.Faces first ∧ (cursor.advance first.length).Faces second := Bytes.holdsAt_append

end Cursor

namespace Reading
variable {part : Bytes} {count : Nat} {cursor moved : Cursor}

theorem run_take (cursor : Cursor) : (take count).run cursor =
    match cursor.message.slice? cursor.position count with
    | some bytes => .ok bytes (cursor.advance count)
    | none => .error .truncated cursor := by
  unfold take
  rw [EStateM.run_bind, EStateM.run_get]
  cases h : cursor.message.slice? cursor.position count <;> simp only [h] <;> rfl

theorem take_ok_iff : (take count).run cursor = .ok part moved ↔
    part.length = count ∧ cursor.Faces part ∧ moved = cursor.advance count := by
  rw [Cursor.Faces, ← and_assoc, ← Bytes.slice?_eq_some_iff, run_take]
  cases cursor.message.slice? cursor.position count with
  | some bytes => rw [EStateM.Result.ok.injEq, Option.some.injEq, @eq_comm _ moved]
  | none => exact ⟨nofun, nofun⟩

theorem skip_ok_iff {done : Unit} : (skip count).run cursor = .ok done moved ↔
    cursor.position + count ≤ cursor.message.length ∧ moved = cursor.advance count := by
  simp only [skip, run_bind_ok_iff, take_ok_iff, EStateM.run_pure]
  constructor
  · rintro ⟨part, _, ⟨rfl, hpart, rfl⟩, hmoved⟩
    exact ⟨hpart.le_length, (EStateM.Result.ok.inj hmoved).2.symm⟩
  · rintro ⟨hle, rfl⟩
    obtain ⟨hlen, hpart⟩ := Bytes.slice?_eq_some_iff.mp (Bytes.slice?_of_le hle)
    exact ⟨_, _, ⟨hlen, hpart, rfl⟩, rfl⟩

theorem run_seek (position : Nat) (cursor : Cursor) : (seek position).run cursor =
    if position ≤ cursor.message.length then .ok () ⟨cursor.message, position⟩
    else .error .truncated cursor := by
  unfold seek Cursor.startAt
  rw [EStateM.run_bind, EStateM.run_get]
  by_cases h : position ≤ cursor.message.length
  · simp only [if_pos h]
    rfl
  · simp only [if_neg h]
    rfl

theorem seek_ok_iff {position : Nat} {done : Unit} : (seek position).run cursor = .ok done moved ↔
    position ≤ cursor.message.length ∧ moved = ⟨cursor.message, position⟩ := by
  rw [run_seek]
  split
  · next hle =>
    rw [EStateM.Result.ok.injEq]
    exact ⟨fun h => ⟨hle, h.2.symm⟩, fun h => ⟨rfl, h.2.symm⟩⟩
  · next hgt => exact ⟨nofun, fun h => absurd h.1 hgt⟩

theorem run_peek (cursor : Cursor) : peek.run cursor =
    match cursor.message[cursor.position]? with
    | some byte => .ok byte cursor
    | none => .error .truncated cursor := by
  unfold peek
  rw [EStateM.run_bind, EStateM.run_get, ← List.head?_drop]
  dsimp only
  rw [Cursor.rest]
  cases cursor.message.drop cursor.position <;> rfl

theorem peek_ok_iff {byte : UInt8} : peek.run cursor = .ok byte moved ↔
    cursor.Faces [byte] ∧ moved = cursor := by
  rw [Cursor.Faces, ← Bytes.getElem?_eq_some_iff, run_peek]
  cases cursor.message[cursor.position]? with
  | some next => rw [EStateM.Result.ok.injEq, Option.some.injEq, @eq_comm _ moved]
  | none => exact ⟨nofun, nofun⟩

theorem uint8_ok_iff {byte : UInt8} : uint8.run cursor = .ok byte moved ↔
    cursor.Faces [byte] ∧ moved = cursor.advance 1 := by
  simp only [uint8, run_bind_ok_iff, take_ok_iff, run_pure_ok_iff]
  constructor
  · rintro ⟨part, _, ⟨hlen, hpart, rfl⟩, rfl, rfl⟩
    obtain ⟨only, rfl⟩ := List.length_eq_one_iff.mp hlen
    rw [Bytes.ofNat_toNat_singleton]
    exact ⟨hpart, rfl⟩
  · rintro ⟨hbyte, rfl⟩
    exact ⟨_, _, ⟨rfl, hbyte, rfl⟩, (Bytes.ofNat_toNat_singleton byte).symm, rfl⟩

theorem uint16_ok_iff {word : UInt16} : uint16.run cursor = .ok word moved ↔
    cursor.Faces (Bytes.ofUInt16 word) ∧ moved = cursor.advance 2 := by
  simp only [uint16, run_bind_ok_iff, take_ok_iff, run_pure_ok_iff]
  constructor
  · rintro ⟨part, _, ⟨hlen, hpart, rfl⟩, rfl, rfl⟩
    rw [Bytes.ofUInt16_toNat hlen]
    exact ⟨hpart, rfl⟩
  · rintro ⟨hword, rfl⟩
    exact ⟨_, _, ⟨rfl, hword, rfl⟩, ((Bytes.ofNat_toNat_eq_uint16 rfl).mpr rfl).symm, rfl⟩

theorem uint32_ok_iff {word : UInt32} : uint32.run cursor = .ok word moved ↔
    cursor.Faces (Bytes.ofUInt32 word) ∧ moved = cursor.advance 4 := by
  simp only [uint32, run_bind_ok_iff, take_ok_iff, run_pure_ok_iff]
  constructor
  · rintro ⟨part, _, ⟨hlen, hpart, rfl⟩, rfl, rfl⟩
    rw [Bytes.ofUInt32_toNat hlen]
    exact ⟨hpart, rfl⟩
  · rintro ⟨hword, rfl⟩
    exact ⟨_, _, ⟨rfl, hword, rfl⟩, ((Bytes.ofNat_toNat_eq_uint32 rfl).mpr rfl).symm, rfl⟩

end Reading

namespace Header
variable {message : Bytes} {cursor moved : Cursor} {header other : Header}

/-- The header as it stands in a message. -/
def bytes (header : Header) : Bytes :=
  Bytes.ofUInt16 header.id ++ (Bytes.ofUInt16 header.flags ++ (Bytes.ofUInt16 header.qdcount ++
    (Bytes.ofUInt16 header.ancount ++ (Bytes.ofUInt16 header.nscount ++
      Bytes.ofUInt16 header.arcount))))

theorem length_bytes (header : Header) : header.bytes.length = size := rfl

theorem read_ok_iff : read.run cursor = .ok header moved ↔
    cursor.Faces header.bytes ∧ moved = cursor.advance size := by
  simp only [read, run_bind_ok_iff, Reading.uint16_ok_iff, run_pure_ok_iff, bytes,
    Cursor.faces_append, Bytes.length_ofUInt16]
  constructor
  · rintro ⟨id, _, ⟨hid, rfl⟩, flags, _, ⟨hflags, rfl⟩, qdcount, _, ⟨hqd, rfl⟩, ancount, _,
      ⟨han, rfl⟩, nscount, _, ⟨hns, rfl⟩, arcount, _, ⟨har, rfl⟩, rfl, rfl⟩
    exact ⟨⟨hid, hflags, hqd, han, hns, har⟩, rfl⟩
  · rintro ⟨⟨hid, hflags, hqd, han, hns, har⟩, rfl⟩
    exact ⟨_, _, ⟨hid, rfl⟩, _, _, ⟨hflags, rfl⟩, _, _, ⟨hqd, rfl⟩, _, _, ⟨han, rfl⟩, _, _,
      ⟨hns, rfl⟩, _, _, ⟨har, rfl⟩, rfl, rfl⟩

end Header
end StubDns
