import StubDns.Wire.Bytes

/-! Where byte strings stand in a message, and the words that stand there. -/
namespace StubDns.Bytes

variable {message part first second before after : Bytes} {position count : Nat}

/-- `part` stands in `message` at `position`. Nothing stands beyond the end, not even nothing. -/
def HoldsAt (message : Bytes) (position : Nat) (part : Bytes) : Prop :=
  message.slice? position part.length = some part

theorem slice?_of_le (h : position + count ≤ message.length) :
    message.slice? position count = some ((message.drop position).take count) := if_pos h

theorem holdsAt_append_left (before part after : Bytes) :
    HoldsAt (before ++ part ++ after) before.length part := by
  unfold HoldsAt
  rw [slice?_of_le (by simp), List.append_assoc, List.drop_left, List.take_left]

theorem holdsAt_iff : message.HoldsAt position part ↔
    ∃ before after, message = before ++ part ++ after ∧ before.length = position := by
  constructor
  · intro h
    unfold HoldsAt slice? at h
    split at h
    · have hpart := Option.some.inj h
      refine ⟨message.take position, (message.drop position).drop part.length, ?_, ?_⟩
      · rw [List.append_assoc, ← congrArg (· ++ _) hpart, List.take_append_drop,
          List.take_append_drop]
      · rw [List.length_take]
        omega
    · contradiction
  · rintro ⟨before, after, rfl, rfl⟩
    exact holdsAt_append_left before part after

theorem HoldsAt.le_length (h : message.HoldsAt position part) :
    position + part.length ≤ message.length := by
  obtain ⟨before, after, rfl, rfl⟩ := holdsAt_iff.mp h
  simp

theorem HoldsAt.drop_eq (h : message.HoldsAt position part) :
    ∃ after, message.drop position = part ++ after := by
  obtain ⟨before, after, rfl, rfl⟩ := holdsAt_iff.mp h
  exact ⟨after, by rw [List.append_assoc, List.drop_left]⟩

theorem holdsAt_of_drop_eq (hle : position ≤ message.length)
    (h : message.drop position = part ++ after) : message.HoldsAt position part := by
  refine holdsAt_iff.mpr ⟨message.take position, after, ?_, ?_⟩
  · rw [List.append_assoc, ← h, List.take_append_drop]
  · rw [List.length_take]
    omega

theorem slice?_eq_some_iff : message.slice? position count = some part ↔
    part.length = count ∧ message.HoldsAt position part := by
  constructor
  · intro h
    have hlen := length_slice? h
    exact ⟨hlen, by rwa [HoldsAt, hlen]⟩
  · rintro ⟨rfl, h⟩
    exact h

theorem holdsAt_iff_take : message.HoldsAt position part ↔
    position + part.length ≤ message.length ∧
      (message.drop position).take part.length = part := by
  constructor
  · intro h
    have hle := h.le_length
    rw [HoldsAt, slice?_of_le hle] at h
    exact ⟨hle, Option.some.inj h⟩
  · rintro ⟨hle, htake⟩
    rw [HoldsAt, slice?_of_le hle, htake]

/-- What stands side by side stands there as one piece. -/
theorem holdsAt_append : message.HoldsAt position (first ++ second) ↔
    message.HoldsAt position first ∧ message.HoldsAt (position + first.length) second := by
  constructor
  · intro h
    obtain ⟨before, after, rfl, rfl⟩ := holdsAt_iff.mp h
    constructor
    · exact holdsAt_iff.mpr ⟨before, second ++ after, by simp only [List.append_assoc], rfl⟩
    · exact holdsAt_iff.mpr ⟨before ++ first, after, by simp only [List.append_assoc],
        List.length_append⟩
  · rintro ⟨h, h'⟩
    obtain ⟨before, after, rfl, rfl⟩ := holdsAt_iff.mp h
    obtain ⟨tail, htail⟩ := h'.drop_eq
    rw [← List.length_append, List.drop_left] at htail
    exact holdsAt_iff.mpr ⟨before, tail, by rw [htail, List.append_assoc, List.append_assoc,
      List.append_assoc], rfl⟩

/-- Only one string of a given length stands at a place. -/
theorem HoldsAt.unique (h : message.HoldsAt position first) (h' : message.HoldsAt position second)
    (hlen : first.length = second.length) : first = second := by
  unfold HoldsAt at h h'
  rw [hlen, h'] at h
  exact (Option.some.inj h).symm

theorem getElem?_eq_some_iff {byte : UInt8} :
    message[position]? = some byte ↔ message.HoldsAt position [byte] := by
  constructor
  · intro h
    obtain ⟨hlt, hget⟩ := List.getElem?_eq_some_iff.mp h
    have hdrop := List.drop_eq_getElem_cons hlt
    rw [hget] at hdrop
    exact holdsAt_of_drop_eq (Nat.le_of_lt hlt) hdrop
  · intro h
    obtain ⟨before, after, rfl, rfl⟩ := holdsAt_iff.mp h
    simp

theorem holdsAt_cons {byte : UInt8} : message.HoldsAt position (byte :: part) ↔
    message[position]? = some byte ∧ message.HoldsAt (position + 1) part := by
  rw [getElem?_eq_some_iff]
  rw [← List.singleton_append, holdsAt_append, List.length_singleton]

/-- What follows a byte stands there with it, as far as the message goes. -/
theorem exists_holdsAt_cons {byte : UInt8} (hbyte : message[position]? = some byte)
    (hinside : position + 1 + count ≤ message.length) :
    ∃ part, part.length = count ∧ message.HoldsAt position (byte :: part) := by
  obtain ⟨hlen, hheld⟩ := slice?_eq_some_iff.mp (slice?_of_le hinside)
  exact ⟨_, hlen, holdsAt_cons.mpr ⟨hbyte, hheld⟩⟩

theorem HoldsAt.byte_eq {byte other : UInt8} (h : message.HoldsAt position (byte :: part))
    (h' : message[position]? = some other) : byte = other :=
  Option.some.inj ((holdsAt_cons.mp h).1.symm.trans h')

/-- The four bytes of `word`, the high one first. -/
def ofUInt32 (word : UInt32) : Bytes :=
  [UInt8.ofNat (word.toNat / 16777216), UInt8.ofNat (word.toNat / 65536 % 256),
    UInt8.ofNat (word.toNat / 256 % 256), UInt8.ofNat (word.toNat % 256)]

theorem length_ofUInt32 (word : UInt32) : (ofUInt32 word).length = 4 := rfl

theorem ofUInt16_toNat {bytes : Bytes} (h : bytes.length = 2) :
    ofUInt16 (UInt16.ofNat bytes.toNat) = bytes := by
  match bytes, h with
  | [high, low], _ =>
    have := high.toNat_lt
    have := low.toNat_lt
    simp only [ofUInt16, toNat, List.foldl_cons, List.foldl_nil, UInt16.toNat_ofNat']
    congr 2 <;> apply UInt8.toNat_inj.mp <;> simp only [UInt8.toNat_ofNat'] <;> omega

theorem ofUInt32_toNat {bytes : Bytes} (h : bytes.length = 4) :
    ofUInt32 (UInt32.ofNat bytes.toNat) = bytes := by
  match bytes, h with
  | [a, b, c, d], _ =>
    have := a.toNat_lt
    have := b.toNat_lt
    have := c.toNat_lt
    have := d.toNat_lt
    simp only [ofUInt32, toNat, List.foldl_cons, List.foldl_nil, UInt32.toNat_ofNat']
    congr 4 <;> apply UInt8.toNat_inj.mp <;> simp only [UInt8.toNat_ofNat'] <;> omega

theorem toNat_ofUInt32 (word : UInt32) : toNat (ofUInt32 word) = word.toNat := by
  have := word.toNat_lt
  simp only [toNat, ofUInt32, List.foldl_cons, List.foldl_nil, UInt8.toNat_ofNat']
  omega

theorem ofNat_toNat_singleton (byte : UInt8) : UInt8.ofNat (toNat [byte]) = byte := by
  rw [toNat, List.foldl_cons, List.foldl_nil, Nat.zero_mul, Nat.zero_add, UInt8.ofNat_toNat]

theorem ofNat_toNat_eq_uint16 {bytes : Bytes} {word : UInt16} (h : bytes.length = 2) :
    UInt16.ofNat bytes.toNat = word ↔ bytes = ofUInt16 word := by
  constructor
  · rintro rfl
    exact (ofUInt16_toNat h).symm
  · rintro rfl
    rw [toNat_ofUInt16, UInt16.ofNat_toNat]

theorem ofNat_toNat_eq_uint32 {bytes : Bytes} {word : UInt32} (h : bytes.length = 4) :
    UInt32.ofNat bytes.toNat = word ↔ bytes = ofUInt32 word := by
  constructor
  · rintro rfl
    exact (ofUInt32_toNat h).symm
  · rintro rfl
    rw [toNat_ofUInt32, UInt32.ofNat_toNat]

/-- The bytes of a word have its value, and no others have. -/
theorem ofUInt16_eq_iff {word : UInt16} {high low : UInt8} :
    ofUInt16 word = [high, low] ↔ word.toNat = high.toNat * 256 + low.toNat := by
  have hvalue : toNat [high, low] = high.toNat * 256 + low.toNat := by
    simp only [toNat, List.foldl_cons, List.foldl_nil, Nat.zero_mul, Nat.zero_add]
  constructor
  · intro h
    rw [← hvalue, ← h, toNat_ofUInt16]
  · intro h
    rw [← hvalue] at h
    have hword : UInt16.ofNat (toNat [high, low]) = word := by rw [← h, UInt16.ofNat_toNat]
    exact ((ofNat_toNat_eq_uint16 rfl).mp hword).symm

theorem ofUInt32_eq_iff {word : UInt32} {a b c d : UInt8} :
    ofUInt32 word = [a, b, c, d] ↔
      word.toNat = ((a.toNat * 256 + b.toNat) * 256 + c.toNat) * 256 + d.toNat := by
  have hvalue : toNat [a, b, c, d] =
      ((a.toNat * 256 + b.toNat) * 256 + c.toNat) * 256 + d.toNat := by
    simp only [toNat, List.foldl_cons, List.foldl_nil, Nat.zero_mul, Nat.zero_add]
  constructor
  · intro h
    rw [← hvalue, ← h, toNat_ofUInt32]
  · intro h
    rw [← hvalue] at h
    have hword : UInt32.ofNat (toNat [a, b, c, d]) = word := by rw [← h, UInt32.ofNat_toNat]
    exact ((ofNat_toNat_eq_uint32 rfl).mp hword).symm

theorem ofUInt16_eq (word : UInt16) : ofUInt16 word = [(word >>> 8).toUInt8, word.toUInt8] := by
  have := word.toNat_lt
  simp only [ofUInt16_eq_iff, UInt16.toNat_toUInt8, UInt16.toNat_shiftRight, UInt16.reduceToNat,
    Nat.reduceMod, Nat.reducePow]
  omega

theorem ofUInt16_injective {a b : UInt16} (h : ofUInt16 a = ofUInt16 b) : a = b := by
  rw [← (ofNat_toNat_eq_uint16 rfl).mpr h.symm, toNat_ofUInt16, UInt16.ofNat_toNat]

end StubDns.Bytes
