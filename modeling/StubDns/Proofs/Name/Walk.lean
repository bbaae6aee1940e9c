import StubDns.Proofs.Name.Meaning

/-! How far a decoder gets. From every place of every message a walk along labels and pointers comes
to an end within the two budgets, decoding follows it, and what stands at its end gives the result. -/
namespace StubDns.Name

/-- The way from one place of `message` to another, past these labels and over so many pointers, all
of which lie inside the message. -/
inductive Leads (message : Bytes) : Nat → List Bytes → Nat → Nat → Prop
  | here {position : Nat} : Leads message position [] 0 position
  | label {position stop : Nat} {size : UInt8} {label : Bytes} {labels : List Bytes} {hops : Nat} :
      0 < size.toNat → size.toNat < 64 → label.length = size.toNat →
      message.HoldsAt position (size :: label) →
      Leads message (position + 1 + size.toNat) labels hops stop →
      Leads message position (label :: labels) hops stop
  | pointer {position stop : Nat} {high low : UInt8} {labels : List Bytes} {hops : Nat} :
      192 ≤ high.toNat → message.HoldsAt position [high, low] →
      target high low < message.length → Leads message (target high low) labels hops stop →
      Leads message position labels (hops + 1) stop

/-- Past these labels and pointers there is no way on from `stop`, be it for what stands there or for
what has been spent, and `result` is what a decoder makes of that. -/
inductive Ends (message : Bytes) (labels : List Bytes) (hops stop : Nat) :
    Except WireError Nat → Prop
  | name : message[stop]? = some 0 → labels ≠ [] →
      Ends message labels hops stop (.ok (text labels).length)
  | noLabel : message[stop]? = some 0 → labels = [] →
      Ends message labels hops stop (.error .emptyName)
  | pastEnd : message[stop]? = none → Ends message labels hops stop (.error .truncated)
  | reserved {byte : UInt8} : message[stop]? = some byte → 64 ≤ byte.toNat → byte.toNat < 192 →
      Ends message labels hops stop (.error (.badLabelType byte))
  | cutPointer {high : UInt8} : message[stop]? = some high → 192 ≤ high.toNat →
      message[stop + 1]? = none → Ends message labels hops stop (.error .truncated)
  | hopsSpent {high low : UInt8} : 192 ≤ high.toNat → message.HoldsAt stop [high, low] →
      128 ≤ hops → Ends message labels hops stop (.error .tooManyPointers)
  | outside {high low : UInt8} : 192 ≤ high.toNat → message.HoldsAt stop [high, low] →
      hops < 128 → message.length ≤ target high low →
      Ends message labels hops stop (.error (.pointerOutOfRange (target high low)))
  | budgetSpent {size : UInt8} : message[stop]? = some size → 0 < size.toNat → size.toNat < 64 →
      256 < charge labels + (size.toNat + 1) →
      Ends message labels hops stop (.error .nameTooLong)
  | cutLabel {size : UInt8} : message[stop]? = some size → 0 < size.toNat → size.toNat < 64 →
      charge labels + (size.toNat + 1) ≤ 256 → message.length < stop + 1 + size.toNat →
      Ends message labels hops stop (.error .truncated)

/-- A walk from `start` that keeps within the budgets of a decoder and ends with `result`. -/
structure Walk (message : Bytes) (start : Nat) (labels : List Bytes) (hops stop : Nat)
    (result : Except WireError Nat) : Prop where
  leads : Leads message start labels hops stop
  hops_le : hops ≤ 128
  charge_le : charge labels ≤ 256
  ends : Ends message labels hops stop result

/-- The labels with a separator behind each of them. -/
def separated (labels : List Bytes) : Bytes := labels.flatMap (· ++ [dot])

variable {message label written : Bytes} {labels more : List Bytes} {high low size : UInt8}
  {position start middle stop hops further limit budget : Nat} {result : Except WireError Nat}

theorem length_separated (labels : List Bytes) : (separated labels).length = charge labels := by
  induction labels with
  | nil => rfl
  | cons label labels ih =>
    have hcons : separated (label :: labels) = label ++ [dot] ++ separated labels :=
      List.flatMap_cons
    rw [hcons, List.length_append, List.length_append, ih]
    rfl

theorem charge_append (labels more : List Bytes) :
    charge (labels ++ more) = charge labels + charge more := by
  induction labels with
  | nil => exact (Nat.zero_add _).symm
  | cons label labels ih =>
    rw [List.cons_append, charge, ih, charge]
    omega

namespace Leads

theorem append (h : Leads message start labels hops middle)
    (h' : Leads message middle more further stop) :
    Leads message start (labels ++ more) (hops + further) stop := by
  induction h with
  | here =>
    rw [Nat.zero_add]
    exact h'
  | label hpos hlt hlen hheld _ ih => exact .label hpos hlt hlen hheld (ih h')
  | pointer hhigh hheld htarget _ ih =>
    rw [Nat.add_right_comm]
    exact .pointer hhigh hheld htarget (ih h')

/-- What a place means that can be reached, the place it is reached from means as well. -/
theorem denotes (h : Leads message start labels hops middle)
    (h' : Denotes message middle more further) :
    Denotes message start (labels ++ more) (hops + further) := by
  induction h with
  | here =>
    rw [Nat.zero_add]
    exact h'
  | label hpos hlt hlen hheld _ ih => exact .label hpos hlt hlen hheld (ih h')
  | pointer hhigh hheld htarget _ ih =>
    rw [Nat.add_right_comm]
    exact .pointer hhigh hheld htarget (ih h')

/-- No label is empty, so each costs two bytes at least. -/
theorem two_mul_length_le (h : Leads message start labels hops stop) :
    2 * labels.length ≤ charge labels := by
  induction h with
  | here => exact Nat.le_refl 0
  | label hpos _ hlen _ _ ih =>
    rw [List.length_cons, charge]
    omega
  | pointer _ _ _ _ ih => exact ih

end Leads

/-- At every place the walk ends, or goes on within the budgets by a label or by a pointer. -/
theorem ends_or_leads (message : Bytes) (labels : List Bytes) (hops stop : Nat) :
    (∃ result, Ends message labels hops stop result) ∨
    (∃ label next, Leads message stop [label] 0 next ∧ charge labels + charge [label] ≤ 256) ∨
    (∃ next, Leads message stop [] 1 next ∧ hops < 128) := by
  cases hbyte : message[stop]? with
  | none => exact .inl ⟨_, .pastEnd hbyte⟩
  | some byte =>
    by_cases hzero : byte = 0
    · subst hzero
      by_cases hlabels : labels = []
      · exact .inl ⟨_, .noLabel hbyte hlabels⟩
      · exact .inl ⟨_, .name hbyte hlabels⟩
    have hpos : 0 < byte.toNat := by
      apply Nat.pos_of_ne_zero
      intro h
      exact hzero (UInt8.toNat_inj.mp h)
    by_cases hlabel : byte.toNat < 64
    · by_cases hcharge : charge labels + (byte.toNat + 1) ≤ 256
      · by_cases hinside : stop + 1 + byte.toNat ≤ message.length
        · obtain ⟨label, hlen, hheld⟩ := Bytes.exists_holdsAt_cons hbyte hinside
          have hcost : charge [label] = byte.toNat + 1 := congrArg (· + 1) hlen
          rw [← hcost] at hcharge
          exact .inr (.inl ⟨_, _, .label hpos hlabel hlen hheld .here, hcharge⟩)
        · exact .inl ⟨_, .cutLabel hbyte hpos hlabel hcharge (Nat.lt_of_not_le hinside)⟩
      · exact .inl ⟨_, .budgetSpent hbyte hpos hlabel (Nat.lt_of_not_le hcharge)⟩
    by_cases hpointer : byte.toNat < 192
    · exact .inl ⟨_, .reserved hbyte (Nat.le_of_not_lt hlabel) hpointer⟩
    have hhigh : 192 ≤ byte.toNat := Nat.le_of_not_lt hpointer
    cases hlow : message[stop + 1]? with
    | none => exact .inl ⟨_, .cutPointer hbyte hhigh hlow⟩
    | some low =>
      have hheld := Bytes.holdsAt_cons.mpr ⟨hbyte, Bytes.getElem?_eq_some_iff.mp hlow⟩
      by_cases hhops : hops < 128
      · by_cases htarget : target byte low < message.length
        · exact .inr (.inr ⟨_, .pointer hhigh hheld htarget .here, hhops⟩)
        · exact .inl ⟨_, .outside hhigh hheld hhops (Nat.le_of_not_lt htarget)⟩
      · exact .inl ⟨_, .hopsSpent hhigh hheld (Nat.le_of_not_lt hhops)⟩

/-- However pointers are laid out, every step spends of one of the budgets, so a walk can be
continued to its end. -/
theorem Leads.exists_walk (h : Leads message start labels hops stop) (hhops : hops ≤ 128)
    (hcharge : charge labels ≤ 256) :
    ∃ labels hops stop result, Walk message start labels hops stop result := by
  -- the position is no measure, as pointers lead forward and back; what is left to spend is one
  induction hleft : (128 - hops) + (256 - charge labels) using Nat.strongRecOn
    generalizing labels hops stop with
  | ind left ih =>
    obtain ⟨result, hends⟩ | ⟨label, next, hstep, hcost⟩ | ⟨next, hstep, hlt⟩ :=
      ends_or_leads message labels hops stop
    · exact ⟨labels, hops, stop, result, h, hhops, hcharge, hends⟩
    · rw [← charge_append] at hcost
      have hless : charge labels < charge (labels ++ [label]) := by
        rw [charge_append]
        exact Nat.lt_add_of_pos_right (Nat.succ_pos _)
      exact ih _ (by omega) (h.append hstep) hhops hcost rfl
    · have hsame : charge (labels ++ []) = charge labels := by rw [List.append_nil]
      exact ih _ (by omega) (h.append hstep) hlt (by omega) rfl

/-- The same result, and nothing put out that the other does not put out there too. -/
structure Decoding.Within (short long : Decoding) : Prop where
  result : short.result = long.result
  written : short.written <+: long.written

theorem Decoding.Within.refl (decoding : Decoding) : decoding.Within decoding :=
  ⟨rfl, List.prefix_refl _⟩

theorem Decoding.Within.trans {first second third : Decoding} (h : first.Within second)
    (h' : second.Within third) : first.Within third :=
  ⟨h.result.trans h'.result, h.written.trans h'.written⟩

theorem decodeFrom_pastEnd (h : message[position]? = none) :
    decodeFrom message position limit budget written = ⟨written, .error .truncated⟩ := by
  rw [decodeFrom, h]

/-- After a label the decoder looks ahead, and where it stops at once it leaves out a separator. -/
theorem decodeFrom_within_label (hpos : 0 < size.toNat) (hlt : size.toNat < 64)
    (hlen : label.length = size.toNat) (h : message.HoldsAt position (size :: label))
    (hbudget : size.toNat + 1 ≤ budget) :
    (decodeFrom message position limit budget written).Within
      (decodeFrom message (position + 1 + size.toNat) limit (budget - (size.toNat + 1))
        (written ++ label ++ [dot])) := by
  cases hnext : message[position + 1 + size.toNat]? with
  | none =>
    have hstop : decodeFrom message position limit budget written =
        ⟨written ++ label, .error .truncated⟩ := by
      obtain ⟨hbyte, hlabel⟩ := Bytes.holdsAt_cons.mp h
      rw [decodeFrom, hbyte]
      simp only [LengthByte.ofByte_eq_label.mpr ⟨rfl, hpos, hlt⟩,
        Bytes.slice?_eq_some_iff.mpr ⟨hlen, hlabel⟩, hnext]
      exact if_neg (by omega)
    rw [hstop, decodeFrom_pastEnd hnext]
    exact ⟨rfl, List.prefix_append _ _⟩
  | some next =>
    rw [decodeFrom_label hpos hlt hlen h hbudget next hnext]
    by_cases hzero : next = 0
    · subst hzero
      rw [if_pos rfl, decodeFrom_root hnext, if_neg (by simp)]
      refine ⟨?_, List.prefix_append _ _⟩
      simp
    · rw [if_neg hzero]
      exact .refl _

/-- Decoding follows the way to wherever it leads, and goes on there with what is left. -/
theorem decodeFrom_within (h : Leads message position labels hops stop) (hhops : hops ≤ limit)
    (hcharge : charge labels ≤ budget) :
    (decodeFrom message position limit budget written).Within
      (decodeFrom message stop (limit - hops) (budget - charge labels)
        (written ++ separated labels)) := by
  induction h generalizing limit budget written with
  | here =>
    have hnothing : written ++ separated [] = written := List.append_nil _
    rw [hnothing]
    exact .refl _
  | @label position stop size label labels hops hpos hlt hlen hheld _ ih =>
    rw [charge] at hcharge
    have hstep : (decodeFrom message position limit budget written).Within
        (decodeFrom message (position + 1 + size.toNat) limit (budget - (size.toNat + 1))
          (written ++ label ++ [dot])) :=
      decodeFrom_within_label hpos hlt hlen hheld (by omega)
    have hrest : (decodeFrom message (position + 1 + size.toNat) limit
          (budget - (size.toNat + 1)) (written ++ label ++ [dot])).Within
        (decodeFrom message stop (limit - hops) (budget - (size.toNat + 1) - charge labels)
          (written ++ label ++ [dot] ++ separated labels)) :=
      ih hhops (by omega)
    have hspent : budget - (size.toNat + 1) - charge labels = budget - charge (label :: labels) := by
      rw [charge]
      omega
    have hwritten : written ++ label ++ [dot] ++ separated labels =
        written ++ separated (label :: labels) := by
      simp only [separated, List.flatMap_cons, List.append_assoc]
    rw [hspent, hwritten] at hrest
    exact hstep.trans hrest
  | pointer hhigh hheld htarget _ ih =>
    obtain ⟨limit, rfl⟩ := Nat.exists_eq_add_of_le' (Nat.le_trans (Nat.succ_pos _) hhops)
    rw [decodeFrom_pointer hhigh hheld htarget, Nat.add_sub_add_right]
    exact ih (Nat.le_of_succ_le_succ hhops) hcharge

theorem decodeFrom_end (h : Ends message labels hops stop result) (hhops : hops ≤ 128)
    (hcharge : charge labels ≤ 256) :
    decodeFrom message stop (128 - hops) (256 - charge labels) (separated labels) =
      ⟨separated labels, result⟩ := by
  have hlen := length_separated labels
  cases h with
  | name hzero hsome =>
    have htext := length_text hsome
    have hwritten : separated labels ≠ [] := by
      apply List.ne_nil_of_length_pos
      omega
    rw [decodeFrom_root hzero, if_neg hwritten, hlen, ← htext]
    rfl
  | noLabel hzero hnone =>
    subst hnone
    rw [decodeFrom_root hzero]
    rfl
  | pastEnd hnone => exact decodeFrom_pastEnd hnone
  | reserved hbyte hge hlt =>
    rw [decodeFrom, hbyte]
    simp only [LengthByte.ofByte_eq_reserved.mpr ⟨hge, hlt⟩]
  | cutPointer hbyte hhigh hnone =>
    rw [decodeFrom, hbyte]
    simp only [LengthByte.ofByte_eq_pointer.mpr ⟨hhigh, rfl⟩, hnone]
  | hopsSpent hhigh hheld hspent =>
    obtain ⟨hbyte, hlow⟩ := Bytes.holdsAt_cons.mp hheld
    rw [decodeFrom, hbyte, Nat.sub_eq_zero_of_le hspent]
    simp only [LengthByte.ofByte_eq_pointer.mpr ⟨hhigh, rfl⟩, Bytes.getElem?_eq_some_iff.mpr hlow]
  | outside hhigh hheld hlt htarget =>
    obtain ⟨hbyte, hlow⟩ := Bytes.holdsAt_cons.mp hheld
    obtain ⟨left, hleft⟩ : ∃ left, 128 - hops = left + 1 := ⟨128 - hops - 1, by omega⟩
    rw [decodeFrom, hbyte, hleft]
    simp only [LengthByte.ofByte_eq_pointer.mpr ⟨hhigh, rfl⟩, Bytes.getElem?_eq_some_iff.mpr hlow]
    exact if_neg (Nat.not_lt.mpr htarget)
  | @budgetSpent size hbyte hpos hlt hspent =>
    have hless : 256 - charge labels < size.toNat + 1 := by omega
    rw [decodeFrom, hbyte]
    simp only [LengthByte.ofByte_eq_label.mpr ⟨rfl, hpos, hlt⟩]
    exact if_pos hless
  | @cutLabel size hbyte hpos hlt hfits hcut =>
    have hmore : ¬ 256 - charge labels < size.toNat + 1 := by omega
    have hnone : message.slice? (stop + 1) size.toNat = none := if_neg (Nat.not_le.mpr hcut)
    rw [decodeFrom, hbyte]
    simp only [LengthByte.ofByte_eq_label.mpr ⟨rfl, hpos, hlt⟩, hnone]
    exact if_neg hmore

/-- Decoding comes to where a walk ends, and has put out nothing but what the walk has passed. -/
theorem decode_of_walk (h : Walk message start labels hops stop result) :
    (decode message start).result = result ∧
      (decode message start).written <+: separated labels := by
  have hfollow : (decode message start).Within
      (decodeFrom message stop (128 - hops) (256 - charge labels) ([] ++ separated labels)) :=
    decodeFrom_within h.leads h.hops_le h.charge_le
  rw [List.nil_append, decodeFrom_end h.ends h.hops_le h.charge_le] at hfollow
  exact ⟨hfollow.result, hfollow.written⟩

theorem exists_walk_of_decode (message : Bytes) (start : Nat) :
    ∃ labels hops stop, Walk message start labels hops stop (decode message start).result ∧
      (decode message start).written <+: separated labels := by
  obtain ⟨labels, hops, stop, result, hwalk⟩ :=
    Leads.exists_walk (@Leads.here message start) (Nat.zero_le 128) (Nat.zero_le 256)
  obtain ⟨hresult, hwritten⟩ := decode_of_walk hwalk
  rw [← hresult] at hwalk
  exact ⟨labels, hops, stop, hwalk, hwritten⟩

/-- No message makes a decoder put out more than a buffer of 256 bytes can take. -/
theorem length_written_decode (message : Bytes) (start : Nat) :
    (decode message start).written.length ≤ 256 := by
  obtain ⟨labels, hops, stop, hwalk, hwritten⟩ := exists_walk_of_decode message start
  calc (decode message start).written.length
      ≤ (separated labels).length := hwritten.length_le
    _ = charge labels := length_separated labels
    _ ≤ 256 := hwalk.charge_le

theorem Walk.size_bounds {size : Nat} (h : Walk message start labels hops stop (.ok size)) :
    1 ≤ size ∧ size ≤ 255 := by
  have hcharge := h.charge_le
  have hcount := h.leads.two_mul_length_le
  cases h.ends with
  | name _ hsome =>
    have htext := length_text hsome
    have hpos := List.length_pos_iff.mpr hsome
    omega

variable {capacity : Nat}

theorem copy_of_lt (h : capacity < 256) (message : Bytes) (start : Nat) (out : Buffer capacity) :
    copy message start out = (.error .outputTooSmall, out) := if_pos h

/-- All that was put out lies at the front of the buffer, and the rest of it is as it was. -/
theorem bytes_copy (h : 256 ≤ capacity) (message : Bytes) (start : Nat) (out : Buffer capacity) :
    (copy message start out).2.bytes = (decode message start).written ++
      out.bytes.drop (decode message start).written.length := by
  have hwritten := length_written_decode message start
  rw [copy_of_le h, Buffer.bytes_overwrite (by omega), List.take_zero, List.nil_append,
    Nat.zero_add]

theorem drop_copy (message : Bytes) (start : Nat) (out : Buffer capacity) :
    (copy message start out).2.bytes.drop 256 = out.bytes.drop 256 := by
  by_cases hsmall : capacity < 256
  · rw [copy_of_lt hsmall]
  · have hwritten := length_written_decode message start
    rw [bytes_copy (Nat.le_of_not_lt hsmall), List.drop_append, List.drop_drop,
      List.drop_of_length_le hwritten, List.nil_append]
    congr 1
    omega

/-- Copying a name is safe on every message. A buffer that could not hold any name is left alone.
Otherwise there is a walk inside the message that ends with the result, over 128 pointers and past
256 bytes of labels at most, and what is put out on it fits the first 256 bytes of the buffer. -/
theorem copy_confined (message : Bytes) (start : Nat) (out : Buffer capacity) :
    (capacity < 256 → copy message start out = (.error .outputTooSmall, out)) ∧
    (256 ≤ capacity → ∃ labels hops stop,
      Walk message start labels hops stop (copy message start out).1 ∧
      hops ≤ 128 ∧ charge labels ≤ 256 ∧ hops + labels.length ≤ 256 ∧
      (decode message start).written <+: separated labels ∧
      (copy message start out).2.bytes = (decode message start).written ++
        out.bytes.drop (decode message start).written.length) ∧
    (decode message start).written.length ≤ 256 ∧
    (∀ size, (copy message start out).1 = .ok size → 1 ≤ size ∧ size ≤ 255) ∧
    (copy message start out).2.bytes.drop 256 = out.bytes.drop 256 := by
  obtain ⟨labels, hops, stop, hwalk, hwritten⟩ := exists_walk_of_decode message start
  have hcharge := hwalk.charge_le
  have hhops := hwalk.hops_le
  have hcount := hwalk.leads.two_mul_length_le
  refine ⟨fun h => copy_of_lt h message start out, ?_, length_written_decode message start, ?_,
    drop_copy message start out⟩
  · intro h
    have hresult : (copy message start out).1 = (decode message start).result := by
      rw [copy_of_le h]
    rw [← hresult] at hwalk
    exact ⟨labels, hops, stop, hwalk, hhops, hcharge, by omega, hwritten,
      bytes_copy h message start out⟩
  · intro size hsize
    obtain ⟨h, _⟩ := legible_of_copy hsize
    rw [copy_of_le h] at hsize
    rw [show (decode message start).result = .ok size from hsize] at hwalk
    exact hwalk.size_bounds

end StubDns.Name
