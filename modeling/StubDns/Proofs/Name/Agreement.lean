import StubDns.Proofs.Name.RoundTrip
import StubDns.Proofs.Name.Stepping

/-! The two ways to go along a name agree. What can be decoded can be stepped over, and what is
stepped over up to a zero byte is decoded to those labels, if there are any and not too many. -/
namespace StubDns.Name

variable {message name : Bytes} {labels : List Bytes} {start stop hops budget : Nat}

/-- Every name is its labels in front of a zero byte or of a pointer. -/
theorem exists_labels_of_wireName (h : WireName name) :
    ∃ labels, ValidLabels labels ∧ (name = wire labels ∨
      ∃ high low, 192 ≤ high.toNat ∧ name = prefixed labels ++ [high, low]) := by
  induction h with
  | root => exact ⟨[], List.forall_mem_nil _, .inl rfl⟩
  | @pointer high low hhigh => exact ⟨[], List.forall_mem_nil _, .inr ⟨high, low, hhigh, rfl⟩⟩
  | @label size label rest hpos hlt hlen _ ih =>
    obtain ⟨labels, hlabels, hform⟩ := ih
    have hsize : UInt8.ofNat label.length = size := by rw [hlen, UInt8.ofNat_toNat]
    have hlabel : label ≠ [] ∧ label.length ≤ 63 :=
      ⟨List.ne_nil_of_length_pos (by omega), by omega⟩
    refine ⟨label :: labels, List.forall_mem_cons.mpr ⟨hlabel, hlabels⟩, ?_⟩
    obtain rfl | ⟨high, low, hhigh, rfl⟩ := hform
    · left
      rw [wire_cons, hsize, List.cons_append]
    · right
      refine ⟨high, low, hhigh, ?_⟩
      rw [prefixed_cons, hsize, List.cons_append, List.cons_append, List.append_assoc]

/-- Labels that cost more than the budget have a first one that is not covered by it. -/
theorem Leads.exists_overspending (h : Leads message start labels hops stop)
    (hcharge : budget < charge labels) :
    ∃ spent used middle, Leads message start spent used middle ∧ used ≤ hops ∧
      charge spent ≤ budget ∧ ∃ size, message[middle]? = some size ∧ 0 < size.toNat ∧
        size.toNat < 64 ∧ budget < charge spent + (size.toNat + 1) := by
  -- the budget that is left to the labels behind the first one is smaller by what that one costs
  induction h generalizing budget with
  | here => contradiction
  | @label position stop size label labels hops hpos hlt hlen hheld _ ih =>
    rw [charge] at hcharge
    by_cases hfirst : budget < size.toNat + 1
    · refine ⟨[], 0, position, .here, Nat.zero_le _, Nat.zero_le _, size, ?_, hpos, hlt, ?_⟩
      · exact (Bytes.holdsAt_cons.mp hheld).1
      · rwa [charge, Nat.zero_add]
    · have hrest : budget - (size.toNat + 1) < charge labels := by omega
      obtain ⟨spent, used, middle, hleads, hused, hspent, next, hnext, hpos', hlt', hover⟩ := ih hrest
      refine ⟨label :: spent, used, middle, .label hpos hlt hlen hheld hleads, hused, ?_, next,
        hnext, hpos', hlt', ?_⟩
      · rw [charge]
        omega
      · rw [charge]
        omega
  | pointer hhigh hheld htarget _ ih =>
    obtain ⟨spent, used, middle, hleads, hused, hover⟩ := ih hcharge
    exact ⟨spent, used + 1, middle, .pointer hhigh hheld htarget hleads, Nat.succ_le_succ hused,
      hover⟩

/-- Labels that cost too much are too much for a decoder, whatever comes behind them. -/
theorem decode_of_overspending (h : Leads message start labels hops stop) (hhops : hops ≤ 128)
    (hcharge : 256 < charge labels) : (decode message start).result = .error .nameTooLong := by
  obtain ⟨spent, used, middle, hleads, hused, hspent, size, hbyte, hpos, hlt, hover⟩ :=
    h.exists_overspending hcharge
  have hwalk : Walk message start spent used middle (.error .nameTooLong) :=
    ⟨hleads, Nat.le_trans hused hhops, hspent, .budgetSpent hbyte hpos hlt hover⟩
  exact (decode_of_walk hwalk).1

/-- The root name has no text. -/
theorem decode_of_root (h : message[start]? = some 0) :
    (decode message start).result = .error .emptyName := by
  have hwalk : Walk message start [] 0 start (.error .emptyName) :=
    ⟨.here, Nat.zero_le _, Nat.zero_le _, .noLabel h rfl⟩
  exact (decode_of_walk hwalk).1

variable {capacity : Nat}

theorem skipName_of_copy {size : Nat} {out : Buffer capacity}
    (h : (copy message start out).1 = .ok size) :
    ∃ stop, Reading.skipName.run ⟨message, start⟩ = .ok () ⟨message, stop⟩ := by
  obtain ⟨-, labels, ⟨hops, hlabels, -⟩, -⟩ := legible_of_copy h
  obtain ⟨name, hname, hheld⟩ := hlabels.exists_wireName
  exact ⟨_, Reading.skipName_ok_iff.mpr ⟨name, hname, hheld, rfl⟩⟩

/-- A name in full is decoded to its labels, unless it has none or they cost too much. -/
theorem copy_of_wire (hcapacity : 256 ≤ capacity) (hlabels : ValidLabels labels)
    (hheld : message.HoldsAt start (wire labels)) (out : Buffer capacity) :
    (labels = [] ∧ (copy message start out).1 = .error .emptyName) ∨
    (256 < charge labels ∧ (copy message start out).1 = .error .nameTooLong) ∨
    (labels ≠ [] ∧ charge labels ≤ 256 ∧
      (copy message start out).1 = .ok (text labels).length ∧
      (copy message start out).2.bytes.take (text labels).length = text labels) := by
  by_cases hnone : labels = []
  · subst hnone
    refine .inl ⟨rfl, ?_⟩
    rw [copy_of_le hcapacity]
    exact decode_of_root (Bytes.getElem?_eq_some_iff.mpr hheld)
  right
  by_cases hcharge : 256 < charge labels
  · refine .inl ⟨hcharge, ?_⟩
    have hleads := leads_prefixed hlabels (Bytes.holdsAt_append.mp hheld).1
    rw [copy_of_le hcapacity]
    exact decode_of_overspending hleads (Nat.zero_le 128) hcharge
  · have hsize := length_wire labels
    have hlegible := legible_wire hlabels hnone (by omega) hheld
    exact .inr ⟨hnone, Nat.le_of_not_lt hcharge, copy_of_legible hcapacity hlegible out⟩

/-- What can be decoded can be stepped over. What is stepped over is labels in front of a zero byte
or of a pointer; and where it is a zero byte, decoding gives the labels that were stepped over, or
there are none, or they cost too much. -/
theorem skipName_agrees_with_copy (hcapacity : 256 ≤ capacity) (message : Bytes) (start : Nat)
    (out : Buffer capacity) :
    (∀ size, (copy message start out).1 = .ok size →
      ∃ stop, Reading.skipName.run ⟨message, start⟩ = .ok () ⟨message, stop⟩) ∧
    ∀ stop, Reading.skipName.run ⟨message, start⟩ = .ok () ⟨message, stop⟩ →
      (∃ labels, ValidLabels labels ∧
        (message.slice? start (stop - start) = some (wire labels) ∨ ∃ high low, 192 ≤ high.toNat ∧
          message.slice? start (stop - start) = some (prefixed labels ++ [high, low]))) ∧
      ∀ labels, ValidLabels labels → message.slice? start (stop - start) = some (wire labels) →
        (labels = [] ∧ (copy message start out).1 = .error .emptyName) ∨
        (256 < charge labels ∧ (copy message start out).1 = .error .nameTooLong) ∨
        (labels ≠ [] ∧ charge labels ≤ 256 ∧
          (copy message start out).1 = .ok (text labels).length ∧
          (copy message start out).2.bytes.take (text labels).length = text labels) := by
  refine ⟨fun size h => skipName_of_copy h, ?_⟩
  intro stop hskip
  constructor
  · obtain ⟨name, hname, hslice⟩ := skipName_eq_ok_iff.mp hskip
    obtain ⟨labels, hlabels, rfl | ⟨high, low, hhigh, rfl⟩⟩ := exists_labels_of_wireName hname
    · exact ⟨labels, hlabels, .inl hslice⟩
    · exact ⟨labels, hlabels, .inr ⟨high, low, hhigh, hslice⟩⟩
  · intro labels hlabels hslice
    exact copy_of_wire hcapacity hlabels (Bytes.slice?_eq_some_iff.mp hslice).2 out

/-- A name that ends with its message, the root name, and five labels of the largest size: all three
are stepped over, and each is decoded to something else. -/
theorem copies_of_stepped_over :
    let short : Bytes := [7, 1, 97, 0]
    let long := wire (List.replicate 5 (List.replicate 63 97))
    256 ≤ 256 ∧
    (Reading.skipName.run ⟨short, 1⟩ = .ok () ⟨short, 4⟩ ∧
      (copy short 1 (Buffer.zero 256)).1 = .ok 1) ∧
    (Reading.skipName.run ⟨[0], 0⟩ = .ok () ⟨[0], 1⟩ ∧
      (copy [0] 0 (Buffer.zero 256)).1 = .error .emptyName) ∧
    Reading.skipName.run ⟨long, 0⟩ = .ok () ⟨long, 321⟩ ∧
      (copy long 0 (Buffer.zero 256)).1 = .error .nameTooLong := by
  intro short long
  let names := List.replicate 5 (List.replicate 63 (97 : UInt8))
  have hnames : ValidLabels names := by decide +kernel
  have hlong : long.slice? 0 (321 - 0) = some (wire names) := by decide +kernel
  have hskipShort := skipName_eq_ok_iff.mpr
    ⟨_, wireName_wire (show ValidLabels [[97]] by decide), show short.slice? 1 (4 - 1) = _ by rfl⟩
  have hskipRoot := skipName_eq_ok_iff.mpr
    ⟨_, WireName.root, show Bytes.slice? [0] 0 (1 - 0) = _ by rfl⟩
  have hskipLong := skipName_eq_ok_iff.mpr ⟨_, wireName_wire hnames, hlong⟩
  obtain ⟨-, hshort⟩ := skipName_agrees_with_copy (Nat.le_refl 256) short 1 (Buffer.zero 256)
  obtain ⟨-, hroot⟩ := skipName_agrees_with_copy (Nat.le_refl 256) [0] 0 (Buffer.zero 256)
  obtain ⟨-, hmany⟩ := skipName_agrees_with_copy (Nat.le_refl 256) long 0 (Buffer.zero 256)
  refine ⟨Nat.le_refl 256, ⟨hskipShort, ?_⟩, ⟨hskipRoot, ?_⟩, hskipLong, ?_⟩
  · obtain ⟨hnone, -⟩ | ⟨hcharge, -⟩ | ⟨-, -, hcopy, -⟩ :=
      (hshort 4 hskipShort).2 [[97]] (by decide) rfl
    · exact absurd hnone (by decide)
    · exact absurd hcharge (by decide)
    · exact hcopy
  · obtain ⟨-, hcopy⟩ | ⟨hcharge, -⟩ | ⟨hsome, -⟩ := (hroot 1 hskipRoot).2 [] (by decide) rfl
    · exact hcopy
    · exact absurd hcharge (by decide)
    · exact absurd rfl hsome
  · obtain ⟨hnone, -⟩ | ⟨-, hcopy⟩ | ⟨-, hcharge, -⟩ := (hmany 321 hskipLong).2 names hnames hlong
    · exact absurd hnone (by decide)
    · exact hcopy
    · exact absurd hcharge (by decide +kernel)

end StubDns.Name
