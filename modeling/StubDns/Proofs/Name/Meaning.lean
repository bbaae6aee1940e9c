import StubDns.Name.Decode
import StubDns.Proofs.Name.Grammar

/-! What a possibly compressed name means, and that decoding finds just that. -/
namespace StubDns.Name

/-- The offset that the two bytes of a pointer spell, without their two top bits. -/
def target (high low : UInt8) : Nat := (high.toNat - 192) * 256 + low.toNat

/-- The labels that the name at a place of `message` stands for, and how many pointers are taken
on the way. A name that runs out of the message or in circles stands for nothing. -/
inductive Denotes (message : Bytes) : Nat → List Bytes → Nat → Prop
  | root {position : Nat} : message.HoldsAt position [0] → Denotes message position [] 0
  | label {position : Nat} {size : UInt8} {label : Bytes} {labels : List Bytes} {hops : Nat} :
      0 < size.toNat → size.toNat < 64 → label.length = size.toNat →
      message.HoldsAt position (size :: label) →
      Denotes message (position + 1 + size.toNat) labels hops →
      Denotes message position (label :: labels) hops
  | pointer {position : Nat} {high low : UInt8} {labels : List Bytes} {hops : Nat} :
      192 ≤ high.toNat → message.HoldsAt position [high, low] →
      target high low < message.length → Denotes message (target high low) labels hops →
      Denotes message position labels (hops + 1)

/-- The labels joined by dots. -/
def text (labels : List Bytes) : Bytes := [dot].intercalate labels

/-- What the labels cost a decoder: their sizes, and one more for each. -/
def charge : List Bytes → Nat
  | [] => 0
  | label :: labels => label.length + 1 + charge labels

/-- The text after `labels` have followed what was put out before, which ends in a separator. -/
def extend (written : Bytes) (labels : List Bytes) : Bytes :=
  if labels = [] then written.dropLast else written ++ text labels

theorem extend_cons (written label : Bytes) (labels : List Bytes) :
    extend (written ++ label ++ [dot]) labels = extend written (label :: labels) := by
  cases labels with
  | nil => simp [extend, text]
  | cons next labels => simp [extend, text]

theorem length_text {labels : List Bytes} (h : labels ≠ []) :
    (text labels).length + 1 = charge labels := by
  induction labels with
  | nil => contradiction
  | cons label labels ih =>
    cases labels with
    | nil => simp [text, charge]
    | cons next labels =>
      have := ih (List.cons_ne_nil _ _)
      rw [charge, ← this]
      simp [text]
      omega

variable {message label written : Bytes} {position limit hops budget : Nat}
  {byte high low : UInt8} {labels : List Bytes}

theorem decodeFrom_root (h : message[position]? = some 0) :
    decodeFrom message position limit budget written =
      ⟨written, if written = [] then .error .emptyName else .ok (written.length - 1)⟩ := by
  rw [decodeFrom, h]
  rfl

theorem decodeFrom_pointer (hhigh : 192 ≤ high.toNat) (h : message.HoldsAt position [high, low])
    (htarget : target high low < message.length) :
    decodeFrom message position (limit + 1) budget written =
      decodeFrom message (target high low) limit budget written := by
  obtain ⟨hbyte, hlow⟩ := Bytes.holdsAt_cons.mp h
  rw [decodeFrom, hbyte]
  simp only [LengthByte.ofByte_eq_pointer.mpr ⟨hhigh, rfl⟩, Bytes.getElem?_eq_some_iff.mpr hlow]
  exact if_pos htarget

theorem decodeFrom_label (hpos : 0 < byte.toNat) (hlt : byte.toNat < 64)
    (hlen : label.length = byte.toNat) (h : message.HoldsAt position (byte :: label))
    (hbudget : byte.toNat + 1 ≤ budget) (next : UInt8)
    (hnext : message[position + 1 + byte.toNat]? = some next) :
    decodeFrom message position limit budget written =
      if next = 0 then ⟨written ++ label, .ok (written.length + label.length)⟩
      else decodeFrom message (position + 1 + byte.toNat) limit (budget - (byte.toNat + 1))
        (written ++ label ++ [dot]) := by
  obtain ⟨hbyte, hlabel⟩ := Bytes.holdsAt_cons.mp h
  rw [decodeFrom, hbyte]
  simp only [LengthByte.ofByte_eq_label.mpr ⟨rfl, hpos, hlt⟩,
    Bytes.slice?_eq_some_iff.mpr ⟨hlen, hlabel⟩, hnext]
  exact if_neg (by omega)

theorem Denotes.exists_getElem? (h : Denotes message position labels hops) :
    ∃ byte, message[position]? = some byte := by
  cases h with
  | root h => exact ⟨0, Bytes.getElem?_eq_some_iff.mpr h⟩
  | label _ _ _ h _ => exact ⟨_, (Bytes.holdsAt_cons.mp h).1⟩
  | pointer _ h _ _ => exact ⟨_, (Bytes.holdsAt_cons.mp h).1⟩

theorem Denotes.eq_nil (h : Denotes message position labels hops)
    (hroot : message[position]? = some 0) : labels = [] := by
  cases h with
  | root => rfl
  | label hpos _ _ h _ =>
    rw [h.byte_eq hroot] at hpos
    contradiction
  | pointer hhigh h _ _ =>
    rw [h.byte_eq hroot] at hhigh
    contradiction

/-- A place means one thing at most, and there is one way to it. -/
theorem Denotes.unique {labels' : List Bytes} {hops' : Nat}
    (h : Denotes message position labels hops) (h' : Denotes message position labels' hops') :
    labels = labels' ∧ hops = hops' := by
  -- the first byte decides which rule applies, and what it spells decides where it leads
  induction h generalizing labels' hops' with
  | root hheld =>
    have hzero := Bytes.getElem?_eq_some_iff.mpr hheld
    cases h' with
    | root => exact ⟨rfl, rfl⟩
    | label hpos' _ _ hheld' _ =>
      rw [hheld'.byte_eq hzero] at hpos'
      contradiction
    | pointer hhigh' hheld' _ _ =>
      rw [hheld'.byte_eq hzero] at hhigh'
      contradiction
  | @label position size label labels hops hpos hlt hlen hheld _ ih =>
    have hbyte := (Bytes.holdsAt_cons.mp hheld).1
    cases h' with
    | root hheld' =>
      rw [← hheld'.byte_eq hbyte] at hpos
      contradiction
    | label _ _ hlen' hheld' hrest' =>
      obtain rfl := hheld'.byte_eq hbyte
      obtain ⟨rfl, rfl⟩ := ih hrest'
      have hsame := hheld.unique hheld' (by rw [List.length_cons, List.length_cons, hlen, hlen'])
      exact ⟨congrArg (· :: labels) (List.cons.inj hsame).2, rfl⟩
    | pointer hhigh' hheld' _ _ =>
      rw [hheld'.byte_eq hbyte] at hhigh'
      omega
  | @pointer position high low labels hops hhigh hheld _ _ ih =>
    have hbyte := (Bytes.holdsAt_cons.mp hheld).1
    cases h' with
    | root hheld' =>
      rw [← hheld'.byte_eq hbyte] at hhigh
      contradiction
    | label _ hlt' _ hheld' _ =>
      rw [hheld'.byte_eq hbyte] at hlt'
      omega
    | pointer _ hheld' _ hrest' =>
      cases hheld.unique hheld' rfl
      obtain ⟨rfl, rfl⟩ := ih hrest'
      exact ⟨rfl, rfl⟩

/-- What has a meaning has the form of a name, up to its first pointer. -/
theorem Denotes.exists_wireName (h : Denotes message position labels hops) :
    ∃ name, WireName name ∧ message.HoldsAt position name := by
  induction h with
  | root hheld => exact ⟨[0], .root, hheld⟩
  | @label position size label labels hops hpos hlt hlen hheld _ ih =>
    obtain ⟨rest, hname, hrest⟩ := ih
    refine ⟨size :: (label ++ rest), .label hpos hlt hlen hname, ?_⟩
    rw [← List.cons_append]
    refine Bytes.holdsAt_append.mpr ⟨hheld, ?_⟩
    rw [List.length_cons, hlen, Nat.add_comm _ 1, ← Nat.add_assoc]
    exact hrest
  | pointer hhigh hheld _ _ _ => exact ⟨_, .pointer hhigh, hheld⟩

/-- A name within both budgets is decoded to its labels, whatever was put out before. -/
theorem decodeFrom_of_denotes (h : Denotes message position labels hops) (hhops : hops ≤ limit)
    (hcharge : charge labels ≤ budget) (hsome : written = [] → labels ≠ []) :
    (decodeFrom message position limit budget written).result =
        .ok (extend written labels).length ∧
      (decodeFrom message position limit budget written).written.take
        (extend written labels).length = extend written labels := by
  induction h generalizing limit budget written with
  | root hheld =>
    have hwritten : written ≠ [] := fun he => hsome he rfl
    rw [decodeFrom_root (Bytes.getElem?_eq_some_iff.mpr hheld), if_neg hwritten]
    simp [extend, List.dropLast_eq_take]
  | @label position size label labels hops hpos hlt hlen hheld hrest ih =>
    rw [charge] at hcharge
    obtain ⟨next, hnext⟩ := hrest.exists_getElem?
    rw [decodeFrom_label hpos hlt hlen hheld (by omega) next hnext]
    split
    · next hzero =>
      obtain rfl := hrest.eq_nil (by rw [hnext, hzero])
      have htext : extend written [label] = written ++ label := by simp [extend, text]
      rw [htext, List.length_append]
      exact ⟨rfl, List.take_of_length_le (Nat.le_of_eq List.length_append)⟩
    · rw [← extend_cons]
      exact ih hhops (by omega) (by simp)
  | pointer hhigh hheld htarget _ ih =>
    obtain ⟨limit, rfl⟩ := Nat.exists_eq_add_of_le' (Nat.le_trans (Nat.succ_pos _) hhops)
    rw [decodeFrom_pointer hhigh hheld htarget]
    exact ih (by omega) hcharge hsome

theorem Denotes.of_slice? {size : Nat} (hbyte : message[position]? = some byte)
    (hsize : LengthByte.ofByte byte = .label size)
    (hlabel : message.slice? (position + 1) size = some label)
    (hrest : Denotes message (position + 1 + size) labels hops) :
    Denotes message position (label :: labels) hops := by
  obtain ⟨rfl, hpos, hlt⟩ := LengthByte.ofByte_eq_label.mp hsize
  obtain ⟨hlen, hheld⟩ := Bytes.slice?_eq_some_iff.mp hlabel
  exact .label hpos hlt hlen (Bytes.holdsAt_cons.mpr ⟨hbyte, hheld⟩) hrest

/-- What is decoded was denoted, and within both budgets. -/
theorem denotes_of_decodeFrom {size : Nat}
    (h : (decodeFrom message position limit budget written).result = .ok size) :
    ∃ labels hops, Denotes message position labels hops ∧ hops ≤ limit ∧
      charge labels ≤ budget ∧ (written = [] → labels ≠ []) := by
  fun_induction decodeFrom message position limit budget written with
  -- a zero byte, a pointer, a label before a zero byte and one before anything else; the other
  -- cases fail
  | case3 position limit budget written byte hbyte hroot =>
    obtain rfl := LengthByte.ofByte_eq_root.mp hroot
    have hwritten : written ≠ [] := by
      intro he
      rw [he, if_pos rfl] at h
      cases h
    exact ⟨[], 0, .root (Bytes.getElem?_eq_some_iff.mp hbyte), Nat.zero_le _, Nat.zero_le _,
      fun he => absurd he hwritten⟩
  | case6 position budget written byte hbyte high hhigh low limit hlow target htarget ih =>
    obtain ⟨labels, hops, hlabels, hhops, hcharge, hsome⟩ := ih h
    obtain ⟨hge, hhigh⟩ := LengthByte.ofByte_eq_pointer.mp hhigh
    have heq : target = Name.target byte low := by rw [Name.target, ← hhigh]
    rw [heq] at hlabels htarget
    have hheld := Bytes.holdsAt_cons.mpr ⟨hbyte, Bytes.getElem?_eq_some_iff.mp hlow⟩
    exact ⟨labels, hops + 1, .pointer hge hheld htarget hlabels, Nat.succ_le_succ hhops, hcharge,
      hsome⟩
  | case11 position limit budget written byte hbyte size hsize hbudget label hlabel hnext =>
    have hend : Denotes message (position + 1 + size) [] 0 :=
      .root (Bytes.getElem?_eq_some_iff.mp hnext)
    refine ⟨[label], 0, .of_slice? hbyte hsize hlabel hend, Nat.zero_le _, ?_, by simp⟩
    have := Bytes.length_slice? hlabel
    rw [charge, charge]
    omega
  | case12 position limit budget written byte hbyte size hsize hbudget label hlabel next hnext _ ih =>
    obtain ⟨labels, hops, hlabels, hhops, hcharge, _⟩ := ih h
    refine ⟨label :: labels, hops, .of_slice? hbyte hsize hlabel hlabels, hhops, ?_, by simp⟩
    have := Bytes.length_slice? hlabel
    rw [charge]
    omega
  | _ => cases h

variable {capacity : Nat}

/-- `labels` are what the name at `start` of `message` stands for, and a decoder can afford them. -/
def Legible (message : Bytes) (start : Nat) (labels : List Bytes) : Prop :=
  ∃ hops, Denotes message start labels hops ∧ labels ≠ [] ∧ hops ≤ 128 ∧ charge labels ≤ 256

theorem take_overwrite_zero {out : Buffer capacity} {data : Bytes} {count : Nat}
    (hdata : count ≤ data.length) (hcount : count ≤ capacity) :
    (out.overwrite 0 data).bytes.take count = data.take count := by
  simp only [Buffer.overwrite, List.take_zero, List.nil_append]
  rw [List.take_take, Nat.min_eq_left hcount, List.take_append_of_le_length hdata]

theorem decode_of_legible {start : Nat} (h : Legible message start labels) :
    (decode message start).result = .ok (text labels).length ∧
      (decode message start).written.take (text labels).length = text labels := by
  obtain ⟨hops, hlabels, hsome, hhops, hcharge⟩ := h
  have hdecode := decodeFrom_of_denotes hlabels hhops hcharge fun _ : ([] : Bytes) = [] => hsome
  have htext : extend [] labels = text labels := by rw [extend, if_neg hsome, List.nil_append]
  rwa [htext] at hdecode

theorem copy_of_le (hcapacity : 256 ≤ capacity) (message : Bytes) (start : Nat)
    (out : Buffer capacity) : copy message start out =
      ((decode message start).result, out.overwrite 0 (decode message start).written) :=
  if_neg (Nat.not_lt.mpr hcapacity)

theorem copy_of_legible {start : Nat} (hcapacity : 256 ≤ capacity)
    (h : Legible message start labels) (out : Buffer capacity) :
    (copy message start out).1 = .ok (text labels).length ∧
      (copy message start out).2.bytes.take (text labels).length = text labels := by
  obtain ⟨hresult, htake⟩ := decode_of_legible h
  rw [copy_of_le hcapacity]
  refine ⟨hresult, ?_⟩
  have hlen := congrArg List.length htake
  rw [List.length_take] at hlen
  obtain ⟨_, _, hsome, _, hcharge⟩ := h
  have := length_text hsome
  rw [take_overwrite_zero (by omega) (by omega), htake]

theorem legible_of_copy {start size : Nat} {out : Buffer capacity}
    (h : (copy message start out).1 = .ok size) :
    256 ≤ capacity ∧ ∃ labels, Legible message start labels ∧ size = (text labels).length := by
  by_cases hcapacity : 256 ≤ capacity
  · rw [copy_of_le hcapacity] at h
    obtain ⟨labels, hops, hlabels, hhops, hcharge, hsome⟩ := denotes_of_decodeFrom h
    have hlegible : Legible message start labels := ⟨hops, hlabels, hsome rfl, hhops, hcharge⟩
    have hsize := (decode_of_legible hlegible).1
    rw [show (decode message start).result = .ok size from h] at hsize
    exact ⟨hcapacity, labels, hlegible, Except.ok.inj hsize⟩
  · have hsmall : copy message start out = (.error .outputTooSmall, out) :=
      if_pos (Nat.not_le.mp hcapacity)
    rw [hsmall] at h
    cases h

theorem result_copy (message : Bytes) (start : Nat) (out other : Buffer capacity) :
    (copy message start out).1 = (copy message start other).1 := by
  unfold copy
  split <;> rfl

/-- The text does not depend on what the buffer held before. -/
theorem copy_other {start size : Nat} {out written : Buffer capacity}
    (h : copy message start out = (.ok size, written)) (other : Buffer capacity) :
    (copy message start other).1 = .ok size ∧
      (copy message start other).2.bytes.take size = written.bytes.take size := by
  obtain ⟨hcapacity, labels, hlegible, rfl⟩ := legible_of_copy (congrArg Prod.fst h)
  obtain ⟨hresult, htake⟩ := copy_of_legible hcapacity hlegible other
  have hwritten := (copy_of_legible hcapacity hlegible out).2
  rw [h] at hwritten
  exact ⟨hresult, htake.trans hwritten.symm⟩

/-- A name is copied exactly when it has a meaning that can be afforded, and then its text is
copied: its labels joined by dots. -/
theorem copy_iff_legible (hcapacity : 256 ≤ capacity) (message : Bytes) (start : Nat)
    (out : Buffer capacity) :
    (∀ size, (copy message start out).1 = .ok size ↔
      ∃ labels, Legible message start labels ∧ size = (text labels).length) ∧
    (∀ labels, Legible message start labels →
      (copy message start out).2.bytes.take (text labels).length = text labels) ∧
    ((∀ labels, ¬ Legible message start labels) →
      ∃ reason, (copy message start out).1 = .error reason) := by
  refine ⟨fun size => ⟨fun h => (legible_of_copy h).2, ?_⟩, ?_, ?_⟩
  · rintro ⟨labels, hlabels, rfl⟩
    exact (copy_of_legible hcapacity hlabels out).1
  · intro labels hlabels
    exact (copy_of_legible hcapacity hlabels out).2
  · intro hnone
    cases hresult : (copy message start out).1 with
    | error reason => exact ⟨reason, rfl⟩
    | ok size =>
      obtain ⟨_, labels, hlabels, _⟩ := legible_of_copy hresult
      exact absurd hlabels (hnone labels)

/-- Labels on both sides of a pointer that leads forward. -/
theorem copy_across_pointer :
    256 ≤ 256 ∧
      (copy [1, 97, 192, 5, 255, 1, 98, 0] 0 (Buffer.zero 256)).1 = .ok 3 ∧
      (copy [1, 97, 192, 5, 255, 1, 98, 0] 0 (Buffer.zero 256)).2.bytes.take 3 = [97, 46, 98] := by
  have hlast : Denotes [1, 97, 192, 5, 255, 1, 98, 0] 5 [[98]] 0 :=
    @Denotes.label _ 5 1 [98] [] 0 (by decide) (by decide) rfl rfl (.root rfl)
  have hpointer : Denotes [1, 97, 192, 5, 255, 1, 98, 0] 2 [[98]] 1 :=
    @Denotes.pointer _ 2 192 5 [[98]] 0 (by decide) rfl (by decide) hlast
  have hlegible : Legible [1, 97, 192, 5, 255, 1, 98, 0] 0 [[97], [98]] :=
    ⟨1, @Denotes.label _ 0 1 [97] [[98]] 1 (by decide) (by decide) rfl rfl hpointer,
      by decide, by decide, by decide⟩
  obtain ⟨hiff, htake, _⟩ := copy_iff_legible (Nat.le_refl 256) [1, 97, 192, 5, 255, 1, 98, 0] 0
    (Buffer.zero 256)
  exact ⟨Nat.le_refl 256, (hiff 3).mpr ⟨_, hlegible, rfl⟩, htake _ hlegible⟩

end StubDns.Name
