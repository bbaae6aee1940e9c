import StubDns.Proofs.Name.Walk

/-! Stepping over a name. It takes the bytes of one name and looks at no others, and it fails just
where the labels in front lead to bytes that no name can go on with. -/
namespace StubDns.Name

variable {message label : Bytes} {labels : List Bytes} {size : UInt8} {start position stop : Nat}
  {reason : WireError}

/-- No name goes on at `stop`: the byte there opens nothing, or what it opens passes the end of the
message. -/
inductive Breaks (message : Bytes) (stop : Nat) : WireError → Prop
  | reserved {byte : UInt8} : message[stop]? = some byte → 64 ≤ byte.toNat → byte.toNat < 192 →
      Breaks message stop (.badLabelType byte)
  | pastEnd : message[stop]? = none → Breaks message stop .truncated
  | cutLabel {size : UInt8} : message[stop]? = some size → 0 < size.toNat → size.toNat < 64 →
      message.length < stop + 1 + size.toNat → Breaks message stop .truncated
  | cutPointer {high : UInt8} : message[stop]? = some high → 192 ≤ high.toNat →
      message[stop + 1]? = none → Breaks message stop .truncated

theorem drop_eq_cons {byte : UInt8} (h : message[position]? = some byte) :
    message.drop position = byte :: message.drop (position + 1) := by
  obtain ⟨hlt, hget⟩ := List.getElem?_eq_some_iff.mp h
  rw [List.drop_eq_getElem_cons hlt, hget]

theorem getElem?_of_drop_eq {byte : UInt8} {rest : Bytes}
    (h : message.drop position = byte :: rest) :
    message[position]? = some byte ∧ message.drop (position + 1) = rest := by
  constructor
  · rw [← List.head?_drop, h]
    rfl
  · rw [← List.drop_drop, h]
    rfl

/-- A label that is all there adds its own bytes to those of the name behind it. -/
theorem extent_label (hpos : 0 < size.toNat) (hlt : size.toNat < 64)
    (hlen : label.length = size.toNat) (h : message.HoldsAt position (size :: label)) :
    extent (message.drop position) =
      (extent (message.drop (position + 1 + size.toNat))).map (1 + size.toNat + ·) := by
  have hinside : size.toNat ≤ (message.drop (position + 1)).length := by
    have hle := h.le_length
    rw [List.length_cons] at hle
    rw [List.length_drop]
    omega
  rw [drop_eq_cons (Bytes.holdsAt_cons.mp h).1, extent]
  simp only [LengthByte.ofByte_eq_label.mpr ⟨rfl, hpos, hlt⟩, if_pos hinside, List.drop_drop]

theorem extent_of_breaks (h : Breaks message stop reason) :
    extent (message.drop stop) = .error reason := by
  cases h with
  | reserved hbyte hge hlt =>
    rw [drop_eq_cons hbyte, extent]
    simp only [LengthByte.ofByte_eq_reserved.mpr ⟨hge, hlt⟩]
  | pastEnd hnone =>
    rw [List.drop_of_length_le (List.getElem?_eq_none_iff.mp hnone), extent]
  | @cutLabel size hbyte hpos hlt hcut =>
    have hless : ¬ size.toNat ≤ (message.drop (stop + 1)).length := by
      rw [List.length_drop]
      omega
    rw [drop_eq_cons hbyte, extent]
    simp only [LengthByte.ofByte_eq_label.mpr ⟨rfl, hpos, hlt⟩, if_neg hless]
  | cutPointer hbyte hhigh hnone =>
    have hend : message.drop (stop + 1) = [] :=
      List.drop_of_length_le (List.getElem?_eq_none_iff.mp hnone)
    rw [drop_eq_cons hbyte, extent, hend]
    simp only [LengthByte.ofByte_eq_pointer.mpr ⟨hhigh, rfl⟩, if_pos]

/-- What no name can go on with, no label in front of it mends. -/
theorem extent_of_leads {hops : Nat} (h : Leads message position labels hops stop)
    (hhops : hops = 0) (hbreaks : Breaks message stop reason) :
    extent (message.drop position) = .error reason := by
  induction h with
  | here => exact extent_of_breaks hbreaks
  | label hpos hlt hlen hheld _ ih =>
    rw [extent_label hpos hlt hlen hheld, ih hhops hbreaks]
    rfl
  | pointer => contradiction

/-- Whatever is not stepped over has labels in front that lead to where no name goes on. -/
theorem leads_of_extent {bytes : Bytes} (h : extent bytes = .error reason)
    (hbytes : message.drop position = bytes) :
    ∃ labels stop, Leads message position labels 0 stop ∧ Breaks message stop reason := by
  fun_induction extent bytes generalizing position with
  -- no byte, a label that is all there, a cut one, a byte of no kind and half a pointer; the zero
  -- byte and the whole pointer end a name
  | case1 =>
    cases h
    have hnone := List.getElem?_eq_none_iff.mpr (List.drop_eq_nil_iff.mp hbytes)
    exact ⟨[], position, .here, .pastEnd hnone⟩
  | case2 => cases h
  | case3 byte rest size hsize hle ih =>
    obtain ⟨rfl, hpos, hlt⟩ := LengthByte.ofByte_eq_label.mp hsize
    obtain ⟨hbyte, hrest⟩ := getElem?_of_drop_eq hbytes
    cases hextent : extent (rest.drop byte.toNat) with
    | ok tail =>
      rw [hextent] at h
      cases h
    | error other =>
      rw [hextent] at h
      obtain rfl : other = reason := Except.error.inj h
      have hnext : message.drop (position + 1 + byte.toNat) = rest.drop byte.toNat := by
        rw [← List.drop_drop, hrest]
      obtain ⟨labels, stop, hleads, hbreaks⟩ := ih hextent hnext
      have hinside : position + 1 + byte.toNat ≤ message.length := by
        have hlength := congrArg List.length hrest
        have hbefore := (List.getElem?_eq_some_iff.mp hbyte).1
        rw [List.length_drop] at hlength
        omega
      obtain ⟨label, hlen, hheld⟩ := Bytes.exists_holdsAt_cons hbyte hinside
      exact ⟨_, stop, .label hpos hlt hlen hheld hleads, hbreaks⟩
  | case4 byte rest size hsize hcut =>
    cases h
    obtain ⟨rfl, hpos, hlt⟩ := LengthByte.ofByte_eq_label.mp hsize
    obtain ⟨hbyte, hrest⟩ := getElem?_of_drop_eq hbytes
    refine ⟨[], position, .here, .cutLabel hbyte hpos hlt ?_⟩
    rw [← hrest, List.length_drop] at hcut
    omega
  | case5 byte rest hbyte =>
    cases h
    obtain ⟨hge, hlt⟩ := LengthByte.ofByte_eq_reserved.mp hbyte
    exact ⟨[], position, .here, .reserved (getElem?_of_drop_eq hbytes).1 hge hlt⟩
  | case6 byte high hhigh =>
    cases h
    obtain ⟨hbyte, hrest⟩ := getElem?_of_drop_eq hbytes
    have hnone := List.getElem?_eq_none_iff.mpr (List.drop_eq_nil_iff.mp hrest)
    exact ⟨[], position, .here, .cutPointer hbyte (LengthByte.ofByte_eq_pointer.mp hhigh).1 hnone⟩
  | case7 => cases h

theorem skipName_of_extent {cursor : Cursor} {count : Nat} (h : extent cursor.rest = .ok count) :
    Reading.skipName.run cursor = .ok () (cursor.advance count) := by
  obtain ⟨name, after, hrest, hname, rfl⟩ := WireName.extent_eq_ok_iff.mp h
  have hpos := hname.length_pos
  have hlength := congrArg List.length hrest
  rw [Cursor.rest, List.length_drop, List.length_append] at hlength
  have hle : cursor.position ≤ cursor.message.length := by omega
  exact Reading.skipName_ok_iff.mpr ⟨name, hname, Bytes.holdsAt_of_drop_eq hle hrest, rfl⟩

theorem skipName_eq_ok_iff :
    Reading.skipName.run ⟨message, start⟩ = .ok () ⟨message, stop⟩ ↔
      ∃ name, WireName name ∧ message.slice? start (stop - start) = some name := by
  rw [Reading.skipName_ok_iff]
  constructor
  · rintro ⟨name, hname, hfaces, hmoved⟩
    obtain rfl : stop = start + name.length := congrArg Cursor.position hmoved
    exact ⟨name, hname, Bytes.slice?_eq_some_iff.mpr ⟨(Nat.add_sub_cancel_left ..).symm, hfaces⟩⟩
  · rintro ⟨name, hname, hslice⟩
    obtain ⟨hlen, hheld⟩ := Bytes.slice?_eq_some_iff.mp hslice
    have hpos := hname.length_pos
    obtain rfl : stop = start + name.length := by omega
    exact ⟨name, hname, hheld, rfl⟩

theorem skipName_error_iff {cursor : Cursor} :
    (∃ moved, Reading.skipName.run cursor = .error reason moved) ↔
      ∃ labels stop, Leads cursor.message cursor.position labels 0 stop ∧
        Breaks cursor.message stop reason := by
  constructor
  · rintro ⟨moved, h⟩
    cases hextent : extent cursor.rest with
    | ok count =>
      rw [skipName_of_extent hextent] at h
      cases h
    | error other =>
      rw [Reading.run_skipName, hextent] at h
      cases h
      exact leads_of_extent hextent rfl
  · rintro ⟨labels, stop, hleads, hbreaks⟩
    have hextent : extent cursor.rest = .error reason := extent_of_leads hleads rfl hbreaks
    rw [Reading.run_skipName, hextent]
    exact ⟨cursor, rfl⟩

theorem Breaks.reason_eq (h : Breaks message stop reason) :
    reason = .truncated ∨ ∃ byte, reason = .badLabelType byte := by
  cases h with
  | reserved => exact .inr ⟨_, rfl⟩
  | pastEnd | cutLabel | cutPointer => exact .inl rfl

/-- A name is stepped over just when its bytes are labels closed by a zero byte or by a pointer. It
is the only one that starts there, and no bytes but its own matter. Stepping over anything else fails
for what the labels in front lead to. -/
theorem skipName_recognises (message : Bytes) (start : Nat) :
    let run := Reading.skipName.run ⟨message, start⟩
    (∀ stop, run = .ok () ⟨message, stop⟩ ↔
      ∃ name, WireName name ∧ message.slice? start (stop - start) = some name) ∧
    (∀ stop, run = .ok () ⟨message, stop⟩ → start < stop ∧ stop ≤ message.length ∧
      ∀ name, message.slice? start (stop - start) = some name →
        (∀ other : Bytes, other.slice? start (stop - start) = some name →
          Reading.skipName.run ⟨other, start⟩ = .ok () ⟨other, stop⟩) ∧
        ∀ other, WireName other → other <+: name ∨ name <+: other → other = name) ∧
    (∀ reason, (∃ moved, run = .error reason moved) ↔
      ∃ labels stop, Leads message start labels 0 stop ∧ Breaks message stop reason) ∧
    ((∃ stop, run = .ok () ⟨message, stop⟩) ∨ (∃ moved, run = .error .truncated moved) ∨
      ∃ byte moved, run = .error (.badLabelType byte) moved) := by
  intro run
  have hok (stop : Nat) : run = .ok () ⟨message, stop⟩ ↔
      ∃ name, WireName name ∧ message.slice? start (stop - start) = some name :=
    skipName_eq_ok_iff
  have herror (reason : WireError) : (∃ moved, run = .error reason moved) ↔ _ := skipName_error_iff
  refine ⟨hok, ?_, herror, ?_⟩
  · intro stop h
    obtain ⟨name, hname, hslice⟩ := (hok stop).mp h
    obtain ⟨hlen, hheld⟩ := Bytes.slice?_eq_some_iff.mp hslice
    have hpos := hname.length_pos
    have hle := hheld.le_length
    refine ⟨by omega, by omega, ?_⟩
    intro same hsame
    obtain rfl : name = same := Option.some.inj (hslice.symm.trans hsame)
    constructor
    · intro other hother
      exact skipName_eq_ok_iff.mpr ⟨name, hname, hother⟩
    · intro other hother hstart
      exact hother.eq_of_prefix hname hstart
  · cases hrun : run with
    | ok done moved =>
      obtain ⟨name, -, -, rfl⟩ := Reading.skipName_ok_iff.mp hrun
      exact .inl ⟨_, rfl⟩
    | error reason moved =>
      obtain ⟨labels, stop, -, hbreaks⟩ := (herror reason).mp ⟨moved, hrun⟩
      obtain rfl | ⟨byte, rfl⟩ := hbreaks.reason_eq
      · exact .inr (.inl ⟨moved, rfl⟩)
      · exact .inr (.inr ⟨byte, moved, rfl⟩)

/-- A name that ends with its pointer, in two messages that are the same only there, and a label in
front of a length byte of no kind. -/
theorem pointer_ends_name :
    let message : Bytes := [7, 1, 97, 192, 0, 255]
    let other : Bytes := [0, 1, 97, 192, 0]
    Reading.skipName.run ⟨message, 1⟩ = .ok () ⟨message, 5⟩ ∧
    message.slice? 1 (5 - 1) = some [1, 97, 192, 0] ∧
    other.slice? 1 (5 - 1) = some [1, 97, 192, 0] ∧
    Reading.skipName.run ⟨other, 1⟩ = .ok () ⟨other, 5⟩ ∧
    ¬ WireName [1, 97, 192, 0, 255] ∧
    ∃ moved, Reading.skipName.run ⟨[1, 97, 64, 0], 0⟩ = .error (.badLabelType 64) moved := by
  intro message other
  have hname : WireName [1, 97, 192, 0] :=
    @WireName.label 1 [97] [192, 0] (by decide) (by decide) rfl (.pointer (by decide))
  have hslice : message.slice? 1 (5 - 1) = some [1, 97, 192, 0] := rfl
  have hother : other.slice? 1 (5 - 1) = some [1, 97, 192, 0] := rfl
  obtain ⟨hiff, hstops, -, -⟩ := skipName_recognises message 1
  have hrun := (hiff 5).mpr ⟨_, hname, hslice⟩
  obtain ⟨-, -, hlocal⟩ := hstops 5 hrun
  obtain ⟨hsame, hunique⟩ := hlocal _ hslice
  refine ⟨hrun, hslice, hother, hsame other hother, ?_, ?_⟩
  · intro hlonger
    have heq := hunique _ hlonger (.inr ⟨[255], rfl⟩)
    contradiction
  · have hleads : Leads [1, 97, 64, 0] 0 [[97]] 0 2 :=
      @Leads.label _ 0 2 1 [97] [] 0 (by decide) (by decide) rfl rfl .here
    obtain ⟨-, -, hfails, -⟩ := skipName_recognises [1, 97, 64, 0] 0
    exact (hfails _).mpr ⟨[[97]], 2, hleads, .reserved rfl (by decide) (by decide)⟩

end StubDns.Name
