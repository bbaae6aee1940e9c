import StubDns.Proofs.Wire.Reading

/-! What a writing that succeeds has written: bytes laid side by side from its position on. -/
namespace StubDns

variable {capacity : Nat}

namespace Buffer

theorem bytes_injective {buffer other : Buffer capacity} (h : buffer.bytes = other.bytes) :
    buffer = other := by
  cases buffer
  cases other
  cases h
  rfl

theorem overwrite_overwrite {buffer : Buffer capacity} {position : Nat} {first second : Bytes}
    (h : position + (first ++ second).length ≤ capacity) :
    (buffer.overwrite position first).overwrite (position + first.length) second =
      buffer.overwrite position (first ++ second) := by
  have hlen := buffer.length_bytes
  have hroom : position + first.length + second.length ≤ capacity := by
    rw [List.length_append] at h
    omega
  have hfront : (buffer.bytes.take position ++ first).length = position + first.length := by
    rw [List.length_append, List.length_take]
    omega
  apply bytes_injective
  rw [bytes_overwrite hroom, bytes_overwrite (by omega), bytes_overwrite h,
    List.take_left' hfront, ← List.drop_drop, List.drop_left' hfront, List.drop_drop,
    List.length_append, Nat.add_assoc, List.append_assoc _ first]

end Buffer

namespace Writer
variable {writer : Writer capacity} {first second : Bytes}

/-- The writer after all of `data`, for which there has to be room. -/
def append (writer : Writer capacity) (data : Bytes) : Writer capacity :=
  ⟨writer.buffer.overwrite writer.position data, writer.position + data.length⟩

theorem position_append (writer : Writer capacity) (data : Bytes) :
    (writer.append data).position = writer.position + data.length := rfl

theorem append_append (h : writer.position + (first ++ second).length ≤ capacity) :
    (writer.append first).append second = writer.append (first ++ second) := by
  simp only [append, Buffer.overwrite_overwrite h, List.length_append, Nat.add_assoc]

theorem length_written (writer : Writer capacity) :
    writer.written.length = min writer.position capacity := by
  rw [written, List.length_take, writer.buffer.length_bytes]

theorem length_written_of_le (h : writer.position ≤ capacity) :
    writer.written.length = writer.position := by
  rw [length_written, Nat.min_eq_left h]

/-- What was written, then the new data, then what stood there. -/
theorem bytes_append (h : writer.position + first.length ≤ capacity) :
    (writer.append first).buffer.bytes = writer.written ++ first ++
      writer.buffer.bytes.drop (writer.append first).position := Buffer.bytes_overwrite h

theorem length_written_append (h : writer.position + first.length ≤ capacity) :
    (writer.written ++ first).length = (writer.append first).position := by
  rw [List.length_append, length_written_of_le (by omega), position_append]

/-- What stands before the position stays as it is. -/
theorem take_append (h : writer.position + first.length ≤ capacity) :
    (writer.append first).buffer.bytes.take writer.position = writer.written := by
  rw [bytes_append h, List.append_assoc, List.take_left' (length_written_of_le (by omega))]

theorem written_append (h : writer.position + first.length ≤ capacity) :
    (writer.append first).written = writer.written ++ first := by
  rw [written, bytes_append h, List.take_left' (length_written_append h)]

/-- What stands behind the new position stays as it is. -/
theorem drop_append (h : writer.position + first.length ≤ capacity) :
    (writer.append first).buffer.bytes.drop (writer.append first).position =
      writer.buffer.bytes.drop (writer.append first).position := by
  rw [bytes_append h, List.drop_left' (length_written_append h)]

/-- Nothing is put in the place of nothing. -/
theorem append_nil (h : writer.position ≤ capacity) : writer.append [] = writer := by
  have hbytes : (writer.buffer.overwrite writer.position []).bytes = writer.buffer.bytes := by
    rw [Buffer.bytes_overwrite (by exact h), List.append_nil, List.length_nil, Nat.add_zero,
      List.take_append_drop]
  rw [append, Buffer.bytes_injective hbytes, List.length_nil, Nat.add_zero]

end Writer

namespace Writing
variable {writer moved : Writer capacity} {data first second : Bytes}

theorem run_put (writer : Writer capacity) (data : Bytes) : (put data).run writer =
    if writer.position + data.length ≤ capacity then .ok () (writer.append data)
    else .error .bufferFull writer := by
  unfold put
  rw [EStateM.run_bind, EStateM.run_get]
  dsimp only
  split <;> rfl

theorem put_ok_iff {done : Unit} : (put data).run writer = .ok done moved ↔
    writer.position + data.length ≤ capacity ∧ moved = writer.append data := by
  rw [run_put]
  split
  · next hle =>
    rw [EStateM.Result.ok.injEq]
    exact ⟨fun h => ⟨hle, h.2.symm⟩, fun h => ⟨rfl, h.2.symm⟩⟩
  · next hgt => exact ⟨nofun, fun h => absurd h.1 hgt⟩

theorem put_error_iff {reason : WireError} : (put data).run writer = .error reason moved ↔
    capacity < writer.position + data.length ∧ reason = .bufferFull ∧ moved = writer := by
  rw [run_put]
  split
  · next hle => exact ⟨nofun, fun h => absurd hle (Nat.not_le_of_lt h.1)⟩
  · next hgt =>
    rw [EStateM.Result.error.injEq]
    exact ⟨fun h => ⟨Nat.lt_of_not_le hgt, h.1.symm, h.2.symm⟩, fun h => ⟨h.2.1.symm, h.2.2.symm⟩⟩

/-- Where there is room the writing puts out just `data`, and else it fails. -/
def Writes (writing : Writing capacity Unit) (data : Bytes) : Prop :=
  ∀ writer moved, writing.run writer = .ok () moved ↔
    writer.position + data.length ≤ capacity ∧ moved = writer.append data

theorem Writes.then {head rest : Writing capacity Unit} (h : head.Writes first)
    (h' : rest.Writes second) : (head >>= fun _ => rest).Writes (first ++ second) := by
  intro writer moved
  rw [run_bind_ok_iff, List.length_append]
  constructor
  · rintro ⟨_, _, hhead, hrest⟩
    obtain ⟨_, rfl⟩ := (h _ _).mp hhead
    obtain ⟨hle, rfl⟩ := (h' _ _).mp hrest
    have hroom : writer.position + (first ++ second).length ≤ capacity := by
      rw [List.length_append]
      exact Nat.add_assoc .. ▸ hle
    exact ⟨List.length_append ▸ hroom, Writer.append_append hroom⟩
  · rintro ⟨hle, rfl⟩
    refine ⟨(), _, (h _ _).mpr ⟨by omega, rfl⟩, (h' _ _).mpr ⟨?_, ?_⟩⟩
    · exact Nat.add_assoc .. ▸ hle
    · rw [Writer.append_append (by rw [List.length_append]; exact hle)]

theorem writes_put (data : Bytes) : (put data : Writing capacity Unit).Writes data :=
  fun _ _ => put_ok_iff

end Writing

theorem Header.writes_put (header : Header) :
    (header.put : Writing capacity Unit).Writes header.bytes := by
  have hword (word : UInt16) : (Writing.uint16 word : Writing capacity Unit).Writes _ :=
    Writing.writes_put (Bytes.ofUInt16 word)
  exact (hword _).then ((hword _).then ((hword _).then ((hword _).then ((hword _).then (hword _)))))

end StubDns
