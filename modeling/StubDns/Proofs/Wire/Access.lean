import StubDns.Proofs.Wire.Writing

/-! Whole sequences of reads and of writes. In whatever order they come and whichever of them fail, a
cursor stays in its message and a writer in its buffer, and what fails changes nothing. -/
namespace StubDns

namespace Reading
variable {α β : Type} {first : Reading α} {count position : Nat}

/-- Where the reading fails, it is for want of bytes, and the cursor stands where it stood. -/
def FailsInPlace (reading : Reading α) : Prop :=
  ∀ cursor reason left, reading.run cursor = .error reason left →
    reason = .truncated ∧ left = cursor

theorem failsInPlace_take : (take count).FailsInPlace := by
  intro cursor reason left h
  rw [run_take] at h
  split at h
  · cases h
  · cases h
    exact ⟨rfl, rfl⟩

/-- Nothing can fail any more once the bytes are read. -/
theorem FailsInPlace.bind_pure (h : first.FailsInPlace) (f : α → β) :
    (first >>= fun found => pure (f found)).FailsInPlace := by
  intro cursor reason left hrun
  rw [EStateM.run_bind] at hrun
  split at hrun
  · cases hrun
  · next hfirst =>
    cases hrun
    exact h _ _ _ hfirst

theorem failsInPlace_seek : (seek position).FailsInPlace := by
  intro cursor reason left h
  rw [run_seek] at h
  split at h
  · cases h
  · cases h
    exact ⟨rfl, rfl⟩

theorem failsInPlace_peek : peek.FailsInPlace := by
  intro cursor reason left h
  rw [run_peek] at h
  split at h
  · cases h
  · cases h
    exact ⟨rfl, rfl⟩

end Reading

namespace Cursor
variable {message part : Bytes} {cursor moved : Cursor} {position : Nat}

/-- The cursor stands in `message`, behind its last byte at most. -/
structure Within (message : Bytes) (cursor : Cursor) : Prop where
  message_eq : cursor.message = message
  position_le : cursor.position ≤ message.length

/-- `part` is what lies between the two positions. -/
def StepsOver (cursor moved : Cursor) (part : Bytes) : Prop :=
  ∃ before after, cursor.message = before ++ part ++ after ∧ before.length = cursor.position ∧
    moved = ⟨cursor.message, cursor.position + part.length⟩

/-- What can be asked of a cursor. -/
inductive Access
  | seek (position : Nat)
  | skip (count : Nat)
  | slice (count : Nat)
  | peek
  | uint8
  | uint16
  | uint32
  deriving DecidableEq

namespace Access

abbrev Value : Access → Type
  | .seek _ | .skip _ => Unit
  | .slice _ => Bytes
  | .peek | .uint8 => UInt8
  | .uint16 => UInt16
  | .uint32 => UInt32

def perform : (access : Access) → Reading access.Value
  | .seek position => Reading.seek position
  | .skip count => Reading.skip count
  | .slice count => Reading.take count
  | .peek => Reading.peek
  | .uint8 => Reading.uint8
  | .uint16 => Reading.uint16
  | .uint32 => Reading.uint32

/-- What an access that succeeds gives, and where it leads. A word has the value of the bytes that are
stepped over, of which the first weighs most. -/
def Gives (cursor : Cursor) : (access : Access) → access.Value → Cursor → Prop
  | .seek position, _, moved =>
    position ≤ cursor.message.length ∧ moved = ⟨cursor.message, position⟩
  | .skip count, _, moved =>
    cursor.position + count ≤ cursor.message.length ∧
      moved = ⟨cursor.message, cursor.position + count⟩
  | .slice count, part, moved => part.length = count ∧ cursor.StepsOver moved part
  | .peek, byte, moved => (∃ next, cursor.StepsOver next [byte]) ∧ moved = cursor
  | .uint8, byte, moved => cursor.StepsOver moved [byte]
  | .uint16, word, moved => ∃ high low, cursor.StepsOver moved [high, low] ∧
    word.toNat = high.toNat * 256 + low.toNat
  | .uint32, word, moved => ∃ a b c d, cursor.StepsOver moved [a, b, c, d] ∧
    word.toNat = ((a.toNat * 256 + b.toNat) * 256 + c.toNat) * 256 + d.toNat

end Access

/-- The cursor after all of the accesses, whatever becomes of each. -/
def performAll (cursor : Cursor) : List Access → Cursor
  | [] => cursor
  | access :: accesses =>
    match access.perform.run cursor with
    | .ok _ moved => moved.performAll accesses
    | .error _ left => left.performAll accesses

theorem startAt_ok_iff : startAt message position = .ok cursor ↔
    position ≤ message.length ∧ cursor = ⟨message, position⟩ := by
  unfold startAt
  by_cases h : position ≤ message.length
  · rw [if_pos h, Except.ok.injEq]
    exact ⟨fun hcursor => ⟨h, hcursor.symm⟩, fun hcursor => hcursor.2.symm⟩
  · rw [if_neg h]
    exact ⟨nofun, fun hle => absurd hle.1 h⟩

theorem stepsOver_iff :
    cursor.StepsOver moved part ↔ cursor.Faces part ∧ moved = cursor.advance part.length := by
  rw [Faces, Bytes.holdsAt_iff]
  constructor
  · rintro ⟨before, after, hmessage, hposition, hmoved⟩
    exact ⟨⟨before, after, hmessage, hposition⟩, hmoved⟩
  · rintro ⟨⟨before, after, hmessage, hposition⟩, hmoved⟩
    exact ⟨before, after, hmessage, hposition, hmoved⟩

theorem Within.of_startAt (h : startAt message position = .ok cursor) : cursor.Within message := by
  obtain ⟨hle, rfl⟩ := startAt_ok_iff.mp h
  exact ⟨rfl, hle⟩

theorem Within.position_add_remaining (h : cursor.Within message) :
    cursor.position + cursor.remaining = message.length := by
  have := h.position_le
  rw [remaining, h.message_eq]
  omega

theorem StepsOver.within (h : cursor.StepsOver moved part) (hwithin : cursor.Within message) :
    moved.Within message := by
  obtain ⟨before, after, hmessage, hposition, rfl⟩ := h
  refine ⟨hwithin.message_eq, ?_⟩
  rw [← hwithin.message_eq, hmessage, ← hposition, ← List.length_append]
  exact (List.prefix_append ..).length_le

namespace Access
variable {access : Access} {value : access.Value}

theorem perform_ok_iff : access.perform.run cursor = .ok value moved ↔
    access.Gives cursor value moved := by
  cases access with
  | seek position => exact Reading.seek_ok_iff
  | skip count => exact Reading.skip_ok_iff
  | slice count =>
    rw [perform, Reading.take_ok_iff, Gives, stepsOver_iff]
    constructor
    · rintro ⟨hlen, hfaces, hmoved⟩
      exact ⟨hlen, hfaces, hlen ▸ hmoved⟩
    · rintro ⟨hlen, hfaces, hmoved⟩
      exact ⟨hlen, hfaces, hlen ▸ hmoved⟩
  | peek =>
    refine Reading.peek_ok_iff.trans (and_congr_left fun _ => ?_)
    constructor
    · intro hfaces
      exact ⟨_, stepsOver_iff.mpr ⟨hfaces, rfl⟩⟩
    · rintro ⟨next, hsteps⟩
      exact (stepsOver_iff.mp hsteps).1
  | uint8 => exact Reading.uint8_ok_iff.trans stepsOver_iff.symm
  | uint16 =>
    refine Reading.uint16_ok_iff.trans ?_
    constructor
    · intro h
      exact ⟨_, _, stepsOver_iff.mpr h, Bytes.ofUInt16_eq_iff.mp rfl⟩
    · rintro ⟨high, low, hsteps, hword⟩
      rw [Bytes.ofUInt16_eq_iff.mpr hword]
      exact stepsOver_iff.mp hsteps
  | uint32 =>
    refine Reading.uint32_ok_iff.trans ?_
    constructor
    · intro h
      exact ⟨_, _, _, _, stepsOver_iff.mpr h, Bytes.ofUInt32_eq_iff.mp rfl⟩
    · rintro ⟨a, b, c, d, hsteps, hword⟩
      rw [Bytes.ofUInt32_eq_iff.mpr hword]
      exact stepsOver_iff.mp hsteps

theorem failsInPlace (access : Access) : access.perform.FailsInPlace := by
  cases access with
  | seek position => exact Reading.failsInPlace_seek
  | skip count => exact Reading.failsInPlace_take.bind_pure fun _ => ()
  | slice count => exact Reading.failsInPlace_take
  | peek => exact Reading.failsInPlace_peek
  | uint8 | uint16 | uint32 => exact Reading.failsInPlace_take.bind_pure _

theorem Gives.within (h : access.Gives cursor value moved) (hwithin : cursor.Within message) :
    moved.Within message := by
  cases access with
  | seek position | skip count =>
    obtain ⟨hle, rfl⟩ := h
    exact ⟨hwithin.message_eq, hwithin.message_eq ▸ hle⟩
  | slice count => exact h.2.within hwithin
  | peek =>
    obtain ⟨_, rfl⟩ := h
    exact hwithin
  | uint8 => exact StepsOver.within h hwithin
  | uint16 =>
    obtain ⟨high, low, hsteps, _⟩ := h
    exact hsteps.within hwithin
  | uint32 =>
    obtain ⟨a, b, c, d, hsteps, _⟩ := h
    exact hsteps.within hwithin

end Access

theorem Within.performAll (h : cursor.Within message) (accesses : List Access) :
    (cursor.performAll accesses).Within message := by
  induction accesses generalizing cursor with
  | nil => exact h
  | cons access accesses ih =>
    rw [Cursor.performAll]
    cases hrun : access.perform.run cursor with
    | ok value moved => exact ih ((Access.perform_ok_iff.mp hrun).within h)
    | error reason left =>
      obtain ⟨_, rfl⟩ := access.failsInPlace _ _ _ hrun
      exact ih h

end Cursor

namespace Writer
variable {capacity position : Nat} {buffer : Buffer capacity} {writer last : Writer capacity}

/-- What can be put into a writer. -/
inductive Put
  | uint8 (byte : UInt8)
  | uint16 (word : UInt16)
  | slice (data : Bytes)
  deriving DecidableEq

namespace Put

def perform : Put → Writing capacity Unit
  | .uint8 byte => Writing.uint8 byte
  | .uint16 word => Writing.uint16 word
  | .slice data => Writing.put data

/-- What a put leaves in the buffer, the high byte of a word before the low one. -/
def bytes : Put → Bytes
  | .uint8 byte => [byte]
  | .uint16 word => [(word >>> 8).toUInt8, word.toUInt8]
  | .slice data => data

theorem perform_eq (put : Put) : (put.perform : Writing capacity Unit) = Writing.put put.bytes := by
  cases put with
  | uint8 byte => rfl
  | uint16 word => rw [perform, Writing.uint16, Bytes.ofUInt16_eq, bytes]
  | slice data => rfl

end Put

/-- The puts that succeed, in order, and the writer after the last. The others are passed over. -/
def putAll (writer : Writer capacity) : List Put → List Put × Writer capacity
  | [] => ([], writer)
  | put :: puts =>
    match put.perform.run writer with
    | .ok _ moved =>
      let (done, last) := moved.putAll puts
      (put :: done, last)
    | .error _ left => left.putAll puts

theorem startAt_ok_iff : startAt buffer position = .ok writer ↔
    position ≤ capacity ∧ writer = ⟨buffer, position⟩ := by
  unfold startAt
  by_cases h : position ≤ capacity
  · rw [if_pos h, Except.ok.injEq]
    exact ⟨fun hwriter => ⟨h, hwriter.symm⟩, fun hwriter => hwriter.2.symm⟩
  · rw [if_neg h]
    exact ⟨nofun, fun hle => absurd hle.1 h⟩

/-- A run of puts lays those that succeed side by side, as one put of them all would. -/
theorem eq_append_of_putAll {puts done : List Put} (hposition : writer.position ≤ capacity)
    (h : writer.putAll puts = (done, last)) :
    writer.position + (done.flatMap Put.bytes).length ≤ capacity ∧
      last = writer.append (done.flatMap Put.bytes) := by
  -- the puts so far are one put behind the start, so the next that succeeds makes it longer
  induction puts generalizing writer done with
  | nil =>
    cases h
    exact ⟨hposition, (append_nil hposition).symm⟩
  | cons put puts ih =>
    rw [putAll, put.perform_eq] at h
    cases hrun : (Writing.put put.bytes).run writer with
    | ok written moved =>
      rw [hrun] at h
      obtain ⟨hroom, rfl⟩ := Writing.put_ok_iff.mp hrun
      cases hrest : (writer.append put.bytes).putAll puts with
      | mk rest reached =>
        dsimp only at h
        rw [hrest] at h
        cases h
        obtain ⟨hfits, rfl⟩ := ih hroom hrest
        have hall : writer.position + (put.bytes ++ rest.flatMap Put.bytes).length ≤ capacity := by
          rw [position_append] at hfits
          rw [List.length_append]
          omega
        rw [List.flatMap_cons, append_append hall]
        exact ⟨hall, rfl⟩
    | error reason left =>
      rw [hrun] at h
      obtain ⟨-, -, rfl⟩ := Writing.put_error_iff.mp hrun
      exact ih hposition h

end Writer

/-- Wherever a sequence of accesses leaves a cursor, it stands in its message, and the next access
gives just what the bytes from there on say, or fails and leaves it there. Wherever a sequence of puts
leaves a writer, it stands in its buffer. Before it are the bytes from before the start and those of
all puts that succeeded, behind it is what was there at first, and a put fails just for want of room
and changes nothing. -/
theorem accesses_within_buffer :
    (∀ (message : Bytes) (position : Nat) (cursor : Cursor),
      Cursor.startAt message position = .ok cursor → ∀ accesses : List Cursor.Access,
        let reached := cursor.performAll accesses
        reached.message = message ∧ reached.position ≤ message.length ∧
        reached.position + reached.remaining = message.length ∧
        ∀ access : Cursor.Access,
          (∀ value moved, access.perform.run reached = .ok value moved ↔
            access.Gives reached value moved) ∧
          ∀ reason left, access.perform.run reached = .error reason left →
            reason = .truncated ∧ left = reached) ∧
    ∀ (capacity : Nat) (buffer : Buffer capacity) (position : Nat) (writer : Writer capacity),
      Writer.startAt buffer position = .ok writer → ∀ puts done reached,
        writer.putAll puts = (done, reached) →
        reached.position ≤ capacity ∧
        reached.written = buffer.bytes.take position ++ done.flatMap Writer.Put.bytes ∧
        reached.buffer.bytes.drop reached.position = buffer.bytes.drop reached.position ∧
        ∀ (put : Writer.Put) reason left, put.perform.run reached = .error reason left ↔
          capacity < reached.position + put.bytes.length ∧ reason = .bufferFull ∧
            left = reached := by
  constructor
  · intro message position cursor hstart accesses reached
    have hwithin := (Cursor.Within.of_startAt hstart).performAll accesses
    refine ⟨hwithin.message_eq, hwithin.position_le, hwithin.position_add_remaining, ?_⟩
    intro access
    exact ⟨fun value moved => Cursor.Access.perform_ok_iff, access.failsInPlace reached⟩
  · intro capacity buffer position writer hstart puts done reached h
    obtain ⟨hle, rfl⟩ := Writer.startAt_ok_iff.mp hstart
    obtain ⟨hroom, rfl⟩ := Writer.eq_append_of_putAll hle h
    refine ⟨hroom, Writer.written_append hroom, Writer.drop_append hroom, ?_⟩
    intro put reason left
    rw [put.perform_eq]
    exact Writing.put_error_iff

/-- A word and a slice that the last byte cuts short, a seek past the end and data that is one byte too
long, each between accesses that succeed. -/
theorem accesses_between_failures :
    let message : Bytes := [9, 1, 2, 3, 4, 255]
    let cursor : Cursor := ⟨message, 1⟩
    let reached :=
      cursor.performAll [.uint32, .uint16, .seek 7, .peek, .seek 2, .slice 5, .skip 1]
    let buffer := Buffer.ofBytes [1, 2, 3, 4, 5, 6]
    let writer : Writer 6 := ⟨buffer, 1⟩
    let (done, full) := writer.putAll [.uint16 0xbeef, .slice [7, 8, 9, 10], .uint8 7]
    Cursor.startAt message 1 = .ok cursor ∧
    reached.position = 3 ∧ reached.position + reached.remaining = 6 ∧
    Reading.uint16.run reached = .ok 772 ⟨message, 5⟩ ∧
    Reading.uint32.run reached = .error .truncated reached ∧
    Writer.startAt buffer 1 = .ok writer ∧
    done = [.uint16 0xbeef, .uint8 7] ∧ full.written = [1, 0xbe, 0xef, 7] ∧
    full.buffer.bytes.drop 4 = [5, 6] ∧
    (Writing.put [0, 0, 0]).run full = .error .bufferFull full := by
  intro message cursor reached buffer writer
  have hcursor : Cursor.startAt message 1 = .ok cursor := rfl
  have hwriter : Writer.startAt buffer 1 = .ok writer := rfl
  obtain ⟨hreads, hwrites⟩ := accesses_within_buffer
  obtain ⟨-, -, hremaining, hnext⟩ := hreads message 1 cursor hcursor
    [.uint32, .uint16, .seek 7, .peek, .seek 2, .slice 5, .skip 1]
  obtain ⟨-, hwritten, hbehind, hrefused⟩ := hwrites 6 buffer 1 writer hwriter
    [.uint16 0xbeef, .slice [7, 8, 9, 10], .uint8 7] _ _ rfl
  refine ⟨hcursor, rfl, hremaining, ?_, ?_, hwriter, rfl, hwritten, hbehind, ?_⟩
  · exact ((hnext .uint16).1 772 ⟨message, 5⟩).mpr
      ⟨3, 4, ⟨[9, 1, 2], [255], rfl, rfl, rfl⟩, rfl⟩
  · obtain ⟨hgives, hfails⟩ := hnext .uint32
    cases hrun : Reading.uint32.run reached with
    | ok word moved =>
      obtain ⟨a, b, c, d, ⟨before, after, hmessage, hbefore, -⟩, -⟩ := (hgives word moved).mp hrun
      have hlength : 6 = (before ++ [a, b, c, d] ++ after).length := congrArg List.length hmessage
      have hthree : before.length = 3 := hbefore
      simp only [List.length_append, List.length_cons] at hlength
      omega
    | error reason left =>
      obtain ⟨rfl, rfl⟩ := hfails reason left hrun
      rfl
  · exact (hrefused (.slice [0, 0, 0]) _ _).mpr ⟨by decide, rfl, rfl⟩

end StubDns
