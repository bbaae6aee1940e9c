import StubDns.Name.Decode
import StubDns.Proofs.Wire.Reading

/-! The grammar of names in a message, and that stepping over a name recognises just it. -/
namespace StubDns

namespace LengthByte
variable {byte : UInt8} {size high : Nat}

theorem ofByte_eq_root : ofByte byte = .root ↔ byte = 0 := by
  rw [← UInt8.toNat_inj]
  grind [ofByte]

theorem ofByte_eq_label :
    ofByte byte = .label size ↔ byte.toNat = size ∧ 0 < size ∧ size < 64 := by
  grind [ofByte]

theorem ofByte_eq_pointer :
    ofByte byte = .pointer high ↔ 192 ≤ byte.toNat ∧ high = byte.toNat - 192 := by
  grind [ofByte]

theorem ofByte_eq_reserved : ofByte byte = .reserved ↔ 64 ≤ byte.toNat ∧ byte.toNat < 192 := by
  grind [ofByte]

end LengthByte

/-- The bytes of one name: labels after their length bytes, then a zero byte or a pointer. -/
inductive WireName : Bytes → Prop
  | root : WireName [0]
  | pointer {high low : UInt8} : 192 ≤ high.toNat → WireName [high, low]
  | label {size : UInt8} {label rest : Bytes} : 0 < size.toNat → size.toNat < 64 →
      label.length = size.toNat → WireName rest → WireName (size :: (label ++ rest))

namespace WireName
variable {name other after tail : Bytes} {size : Nat}

theorem extent_append (h : WireName name) (after : Bytes) :
    Name.extent (name ++ after) = .ok name.length := by
  induction h with
  | root => simp [Name.extent, LengthByte.ofByte_eq_root.mpr]
  | pointer hhigh => simp [Name.extent, LengthByte.ofByte_eq_pointer.mpr ⟨hhigh, rfl⟩]
  | @label size label rest hpos hlt hlen _ ih =>
    rw [List.cons_append, Name.extent, LengthByte.ofByte_eq_label.mpr ⟨rfl, hpos, hlt⟩]
    simp only [List.append_assoc, ← hlen, List.drop_left, ih]
    simp [Except.map]
    omega

theorem of_extent {bytes : Bytes} (h : Name.extent bytes = .ok size) :
    ∃ name after, bytes = name ++ after ∧ WireName name ∧ name.length = size := by
  fun_induction Name.extent bytes generalizing size with
  -- a zero byte, a label that is all there, and a pointer with its second byte
  | case1 => contradiction
  | case2 byte rest hbyte =>
    obtain rfl := LengthByte.ofByte_eq_root.mp hbyte
    exact ⟨[0], rest, rfl, .root, Except.ok.inj h⟩
  | case3 byte rest count hbyte hle ih =>
    obtain ⟨rfl, hpos, hlt⟩ := LengthByte.ofByte_eq_label.mp hbyte
    cases hrest : Name.extent (rest.drop byte.toNat) with
    | error reason => rw [hrest] at h; contradiction
    | ok tail =>
      obtain ⟨name, after, hdrop, hname, hlen⟩ := ih hrest
      have hlabel : (rest.take byte.toNat).length = byte.toNat := List.length_take_of_le hle
      refine ⟨byte :: (rest.take byte.toNat ++ name), after, ?_, .label hpos hlt hlabel hname, ?_⟩
      · rw [List.cons_append, List.append_assoc, ← hdrop, List.take_append_drop]
      · rw [hrest] at h
        have hsize : 1 + byte.toNat + tail = size := Except.ok.inj h
        rw [List.length_cons, List.length_append, hlabel, hlen]
        omega
  | case4 => cases h
  | case5 => cases h
  | case6 => cases h
  | case7 byte rest high hbyte hrest =>
    have hhigh := (LengthByte.ofByte_eq_pointer.mp hbyte).1
    obtain ⟨low, after, rfl⟩ := List.exists_cons_of_ne_nil hrest
    exact ⟨[byte, low], after, rfl, .pointer hhigh, Except.ok.inj h⟩

/-- Stepping over a name takes the bytes of one name and depends on no others. -/
theorem extent_eq_ok_iff {bytes : Bytes} : Name.extent bytes = .ok size ↔
    ∃ name after, bytes = name ++ after ∧ WireName name ∧ name.length = size := by
  constructor
  · exact of_extent
  · rintro ⟨name, after, rfl, hname, rfl⟩
    exact hname.extent_append after

/-- No name is the start of another one. -/
theorem prefix_free (h : WireName name) (h' : WireName other)
    (heq : name ++ after = other ++ tail) : name = other := by
  have hextent := h.extent_append after
  rw [heq, h'.extent_append tail] at hextent
  exact (List.append_inj heq (Except.ok.inj hextent).symm).1

theorem eq_of_prefix (h : WireName name) (h' : WireName other)
    (hsame : name <+: other ∨ other <+: name) : name = other := by
  obtain ⟨tail, rfl⟩ | ⟨tail, rfl⟩ := hsame
  · exact h.prefix_free h' (List.append_nil _).symm
  · exact h.prefix_free h' (List.append_nil _)

theorem length_pos (h : WireName name) : 0 < name.length := by
  cases h <;> exact Nat.succ_pos _

end WireName

namespace Reading

theorem run_skipName (cursor : Cursor) : skipName.run cursor =
    match Name.extent cursor.rest with
    | .ok size => (skip size).run cursor
    | .error reason => .error reason cursor := by
  unfold skipName
  rw [EStateM.run_bind, EStateM.run_get]
  cases h : Name.extent cursor.rest with
  | ok size => simp only [h]
  | error reason =>
    simp only [h]
    rfl

theorem skipName_ok_iff {cursor moved : Cursor} {done : Unit} :
    skipName.run cursor = .ok done moved ↔
      ∃ name, WireName name ∧ cursor.Faces name ∧ moved = cursor.advance name.length := by
  rw [run_skipName]
  constructor
  · intro h
    split at h
    · next size hsize =>
      obtain ⟨name, after, hrest, hname, rfl⟩ := WireName.extent_eq_ok_iff.mp hsize
      obtain ⟨hle, rfl⟩ := skip_ok_iff.mp h
      exact ⟨name, hname, Bytes.holdsAt_of_drop_eq (by omega) hrest, rfl⟩
    · contradiction
  · rintro ⟨name, hname, hfaces, rfl⟩
    obtain ⟨after, hrest⟩ := hfaces.drop_eq
    have hsize : Name.extent cursor.rest = .ok name.length :=
      WireName.extent_eq_ok_iff.mpr ⟨name, after, hrest, hname, rfl⟩
    rw [hsize]
    exact skip_ok_iff.mpr ⟨hfaces.le_length, rfl⟩

end Reading
end StubDns
