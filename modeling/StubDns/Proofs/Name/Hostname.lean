import StubDns.Proofs.Name.RoundTrip

/-! Which host names can be written, what is wrong with the others, and what a suffix adds. -/
namespace StubDns.Name

variable {capacity encoded : Nat} {writer moved : Writer capacity} {label : Bytes}
  {names before : List Bytes} {reason other : WireError}

/-- What is wrong with a label of a name that takes `encoded` bytes in front of it. A whole name
takes 255 bytes at most, the final zero byte among them. -/
inductive Offends (encoded : Nat) (label : Bytes) : WireError → Prop
  | empty : label = [] → Offends encoded label .emptyLabel
  | tooLong : 63 < label.length → Offends encoded label .labelTooLong
  | nameTooLong : label ≠ [] → label.length ≤ 63 → 255 < encoded + (label.length + 1) + 1 →
      Offends encoded label .nameTooLong

/-- What is wrong with the first label that anything is wrong with, behind `encoded` bytes. -/
def FirstOffence (encoded : Nat) (names : List Bytes) (reason : WireError) : Prop :=
  ∃ before label after, names = before ++ label :: after ∧ ValidLabels before ∧
    encoded + charge before + 1 ≤ 255 ∧ Offends (encoded + charge before) label reason

/-- Nothing is wrong with a label, or some one thing is. -/
theorem fits_or_offends (encoded : Nat) (label : Bytes) :
    (label ≠ [] ∧ label.length ≤ 63 ∧ encoded + label.length + 2 < 256) ∨
      ∃ reason, Offends encoded label reason := by
  by_cases hempty : label = []
  · exact .inr ⟨_, .empty hempty⟩
  by_cases hlong : 63 < label.length
  · exact .inr ⟨_, .tooLong hlong⟩
  by_cases htotal : 255 < encoded + (label.length + 1) + 1
  · exact .inr ⟨_, .nameTooLong hempty (Nat.le_of_not_lt hlong) htotal⟩
  · exact .inl ⟨hempty, Nat.le_of_not_lt hlong, by omega⟩

namespace Offends

theorem not_fits (h : Offends encoded label reason) (hsome : label ≠ []) (hlabel : label.length ≤ 63) :
    255 < encoded + (label.length + 1) + 1 := by
  cases h with
  | empty hempty => exact absurd hempty hsome
  | tooLong hlong => omega
  | nameTooLong _ _ htotal => exact htotal

theorem unique (h : Offends encoded label reason) (h' : Offends encoded label other) :
    reason = other := by
  cases h with
  | empty hempty =>
    subst hempty
    cases h' with
    | empty => rfl
    | tooLong hlong => contradiction
    | nameTooLong hsome => contradiction
  | tooLong hlong =>
    cases h' with
    | empty hempty =>
      subst hempty
      contradiction
    | tooLong => rfl
    | nameTooLong _ hlabel => omega
  | nameTooLong hsome hlabel =>
    cases h' with
    | empty hempty => contradiction
    | tooLong hlong => omega
    | nameTooLong => rfl

theorem ne_bufferFull (h : Offends encoded label reason) : reason ≠ .bufferFull := by
  cases h <;> exact nofun

/-- A label that something is wrong with is refused for that, and nothing of it is written. -/
theorem run_putLabel (h : Offends encoded label reason) (writer : Writer capacity) :
    (putLabel encoded label).run writer = .error reason writer := by
  unfold putLabel
  cases h with
  | empty hempty =>
    rw [if_pos hempty]
    rfl
  | tooLong hlong =>
    have hsome : label ≠ [] := List.ne_nil_of_length_pos (by omega)
    have hmax : labelMax < label.length := hlong
    rw [if_neg hsome, if_pos hmax]
    rfl
  | nameTooLong hsome hlabel htotal =>
    have hmax : ¬ labelMax < label.length := Nat.not_lt.mpr hlabel
    have hsize : sizeMax ≤ encoded + 1 + label.length + 1 := by
      rw [sizeMax]
      omega
    rw [if_neg hsome, if_neg hmax, if_pos hsize]
    rfl

end Offends

theorem firstOffence_nil : ¬ FirstOffence encoded [] reason := by
  rintro ⟨before, label, after, hnil, _⟩
  cases before <;> cases hnil

theorem firstOffence_cons_of_offends (h : Offends encoded label other)
    (hencoded : encoded + 1 ≤ 255) :
    FirstOffence encoded (label :: names) reason ↔ reason = other := by
  constructor
  · rintro ⟨before, first, after, hnames, hvalid, hsize, hoffends⟩
    cases before with
    | nil =>
      cases hnames
      exact hoffends.unique h
    | cons valid before =>
      cases hnames
      obtain ⟨⟨hsome, hlabel⟩, _⟩ := List.forall_mem_cons.mp hvalid
      have htotal := h.not_fits hsome hlabel
      rw [charge] at hsize
      omega
  · rintro rfl
    exact ⟨[], label, names, rfl, List.forall_mem_nil _, hencoded, h⟩

theorem firstOffence_cons_of_fits (hsome : label ≠ []) (hlabel : label.length ≤ 63)
    (hsize : encoded + label.length + 2 < 256) :
    FirstOffence encoded (label :: names) reason ↔
      FirstOffence (encoded + 1 + label.length) names reason := by
  have hcharge (before : List Bytes) :
      encoded + charge (label :: before) = encoded + 1 + label.length + charge before := by
    rw [charge]
    omega
  constructor
  · rintro ⟨before, first, after, hnames, hvalid, hfits, hoffends⟩
    cases before with
    | nil =>
      cases hnames
      have htotal := hoffends.not_fits hsome hlabel
      rw [charge] at htotal
      omega
    | cons valid before =>
      cases hnames
      rw [hcharge] at hfits hoffends
      exact ⟨before, first, after, rfl, (List.forall_mem_cons.mp hvalid).2, hfits, hoffends⟩
  · rintro ⟨before, first, after, rfl, hvalid, hfits, hoffends⟩
    rw [← hcharge] at hfits hoffends
    exact ⟨label :: before, first, after, rfl, List.forall_mem_cons.mpr ⟨⟨hsome, hlabel⟩, hvalid⟩,
      hfits, hoffends⟩

/-- Where there is room for any name, writing fails just for the first label that something is wrong
with. -/
theorem putLabels_error_iff (hencoded : encoded + 1 ≤ 255)
    (hroom : writer.position + 255 ≤ capacity + encoded) :
    (∃ moved, (putLabels encoded names).run writer = .error reason moved) ↔
      FirstOffence encoded names reason := by
  induction names generalizing encoded writer with
  | nil =>
    have hend : writer.position + (wire []).length ≤ capacity := by
      have hone : (wire []).length = 1 := rfl
      omega
    have hok : (putLabels encoded []).run writer = .ok _ _ :=
      (putLabels_ok_iff hencoded).mpr ⟨List.forall_mem_nil _, hencoded, hend, rfl, rfl⟩
    rw [hok]
    exact ⟨nofun, fun h => absurd h firstOffence_nil⟩
  | cons label names ih =>
    rw [putLabels, EStateM.run_bind]
    obtain ⟨hsome, hlabel, hsize⟩ | ⟨other, hoffends⟩ := fits_or_offends encoded label
    · have hput : (putLabel encoded label).run writer = .ok () _ :=
        putLabel_ok_iff.mpr ⟨hsome, hlabel, hsize, by omega, rfl⟩
      rw [hput, firstOffence_cons_of_fits hsome hlabel hsize]
      apply ih
      · omega
      · rw [Writer.position_append, List.length_cons]
        omega
    · rw [hoffends.run_putLabel, firstOffence_cons_of_offends hoffends hencoded]
      constructor
      · rintro ⟨moved, h⟩
        cases h
        rfl
      · rintro rfl
        exact ⟨writer, rfl⟩

theorem length_wire_labels (text : Bytes) : (wire (labels text)).length = text.length + 2 := by
  have hsome : labels text ≠ [] := List.splitOn_ne_nil _ _
  have htext : Name.text (labels text) = text := List.intercalate_splitOn dot
  rw [length_wire, ← length_text hsome, htext]

theorem putHostname_eq (hostname : Bytes) (suffix : Option Bytes) (h : hostname ≠ []) :
    (putHostname hostname suffix : Writing capacity Nat) =
      putLabels 0 (labels (qualified hostname suffix)) := by
  rw [putHostname, if_neg h, questionLabels_eq]

/-- A host name is written just when its qualified text is at most 253 bytes of labels of 1 to 63
bytes and there is room for it, and then takes two bytes more than its text. Otherwise the fault is
that of the first label that has one, unless there was not room for any name. -/
theorem hostname_written_iff (hostname : Bytes) (suffix : Option Bytes) (writer : Writer capacity) :
    (hostname = [] → (putHostname hostname suffix).run writer = .error .emptyName writer) ∧
    (hostname ≠ [] →
      let text := dropDot hostname ++ completion hostname suffix
      ((∃ size moved, (putHostname hostname suffix).run writer = .ok size moved) ↔
        (∀ piece ∈ labels text, 1 ≤ piece.length ∧ piece.length ≤ 63) ∧ text.length ≤ 253 ∧
          writer.position + (text.length + 2) ≤ capacity) ∧
      (∀ size moved, (putHostname hostname suffix).run writer = .ok size moved →
        size = text.length + 2 ∧ moved.position = writer.position + (text.length + 2) ∧
          moved = writer.append (wire (labels text))) ∧
      (writer.position + 255 ≤ capacity →
        (∀ moved, (putHostname hostname suffix).run writer ≠ .error .bufferFull moved) ∧
        ∀ reason, (∃ moved, (putHostname hostname suffix).run writer = .error reason moved) ↔
          FirstOffence 0 (labels text) reason)) := by
  constructor
  · rintro rfl
    rfl
  intro hsome text
  have htext : qualified hostname suffix = text := qualified_eq_append hostname suffix
  have hput : (putHostname hostname suffix : Writing capacity Nat) = putLabels 0 (labels text) := by
    rw [putHostname_eq hostname suffix hsome, htext]
  have hlength := length_wire_labels text
  have hok (size : Nat) (moved : Writer capacity) :
      (putLabels 0 (labels text)).run writer = .ok size moved ↔ _ :=
    putLabels_ok_iff (Nat.zero_lt_succ 254)
  rw [hlength, Nat.zero_add] at hok
  have hvalid : ValidLabels (labels text) ↔
      ∀ piece ∈ labels text, 1 ≤ piece.length ∧ piece.length ≤ 63 := by
    simp only [ValidLabels, ← List.length_pos_iff, Nat.succ_le_iff]
  rw [hput]
  refine ⟨?_, ?_, ?_⟩
  · rw [← hvalid]
    constructor
    · rintro ⟨size, moved, hrun⟩
      obtain ⟨hnames, hsize, hroom, _⟩ := (hok size moved).mp hrun
      exact ⟨hnames, by omega, hroom⟩
    · rintro ⟨hnames, hsize, hroom⟩
      exact ⟨_, _, (hok _ _).mpr ⟨hnames, by omega, hroom, rfl, rfl⟩⟩
  · intro size moved hrun
    obtain ⟨_, _, _, hsize, rfl⟩ := (hok size moved).mp hrun
    exact ⟨hsize, by rw [Writer.position_append, hlength], rfl⟩
  · intro hroom
    have hfault (reason : WireError) :
        (∃ moved, (putLabels 0 (labels text)).run writer = .error reason moved) ↔ _ :=
      putLabels_error_iff (Nat.le_add_left 1 254) hroom
    refine ⟨?_, hfault⟩
    intro moved hfull
    obtain ⟨_, _, _, _, _, _, hoffends⟩ := (hfault .bufferFull).mp ⟨moved, hfull⟩
    exact hoffends.ne_bufferFull rfl

/-- Three labels of 63 bytes and a last one. -/
def longName (last : Nat) : Bytes :=
  (List.replicate 63 97 ++ [dot]) ++ (List.replicate 63 97 ++ [dot]) ++
    (List.replicate 63 97 ++ [dot]) ++ List.replicate last 97

/-- The longest name there is in the smallest buffer that holds it, and one byte more. -/
theorem longest_hostname_written :
    let writer := Writer.start (Buffer.zero 255)
    (∃ moved, (putHostname (longName 61) none).run writer = .ok 255 moved) ∧
    (∃ moved, (putHostname (longName 62) none).run writer = .error .nameTooLong moved) := by
  intro writer
  constructor
  · obtain ⟨hiff, hsize, _⟩ :=
      (hostname_written_iff (longName 61) none writer).2 (by decide +kernel)
    obtain ⟨size, moved, hrun⟩ := hiff.mpr (by decide +kernel)
    obtain ⟨hcount, _⟩ := hsize size moved hrun
    have hlargest : size = 255 := hcount.trans (by decide +kernel)
    rw [hlargest] at hrun
    exact ⟨moved, hrun⟩
  · obtain ⟨_, _, hfault⟩ :=
      (hostname_written_iff (longName 62) none writer).2 (by decide +kernel)
    apply ((hfault (Nat.le_refl 255)).2 .nameTooLong).mpr
    refine ⟨List.replicate 3 (List.replicate 63 97), List.replicate 62 97, [], ?_, ?_, ?_, ?_⟩
    · decide +kernel
    · decide +kernel
    · decide +kernel
    · exact .nameTooLong (by decide) (by decide) (by decide +kernel)

variable {text first second hostname suffix : Bytes}

theorem dropDot_concat (front : Bytes) (last : UInt8) :
    dropDot (front ++ [last]) = if last = dot then front else front ++ [last] := by
  simp only [dropDot, List.getLast?_concat, Option.some.injEq, List.dropLast_concat]

theorem dropDot_append (first : Bytes) (h : second ≠ []) :
    dropDot (first ++ second) = first ++ dropDot second := by
  obtain hnil | ⟨front, last, rfl⟩ := List.eq_nil_or_concat second
  · contradiction
  rw [List.concat_eq_append, ← List.append_assoc, dropDot_concat, dropDot_concat]
  by_cases hlast : last = dot
  · rw [if_pos hlast, if_pos hlast]
  · rw [if_neg hlast, if_neg hlast, List.append_assoc]

theorem dropDot_of_not_mem (h : dot ∉ text) : dropDot text = text := by
  apply if_neg
  intro hlast
  exact h (List.mem_of_getLast? hlast)

theorem eq_of_dropDot_eq_nil (h : dropDot text = []) : text = [] ∨ text = [dot] := by
  obtain rfl | ⟨front, last, rfl⟩ := List.eq_nil_or_concat text
  · exact .inl rfl
  · rw [List.concat_eq_append] at h ⊢
    rw [dropDot_concat] at h
    by_cases hlast : last = dot
    · rw [if_pos hlast] at h
      rw [h, hlast]
      exact .inr rfl
    · rw [if_neg hlast] at h
      simp at h

theorem qualified_of_mem (h : dot ∈ hostname) (suffix : Option Bytes) :
    qualified hostname suffix = dropDot hostname := by
  simp [qualified, suffixFor, h]

/-- A suffix that is more than a dot makes the same name as if it had been written out, with a dot
between. -/
theorem qualified_written_out (hdot : dot ∉ hostname) (hsuffix : suffix ≠ [dot])
    (other : Option Bytes) :
    qualified hostname (some suffix) = qualified (hostname ++ dot :: suffix) other := by
  have hmem : dot ∈ hostname ++ dot :: suffix := by simp
  rw [qualified_of_mem hmem, qualified_eq_append, dropDot_of_not_mem hdot]
  by_cases hnothing : suffix = []
  · subst hnothing
    rw [dropDot_concat, if_pos rfl, completion, if_pos (.inr rfl), List.append_nil]
  · have hrest : dropDot suffix ≠ [] := by
      intro h
      obtain h | h := eq_of_dropDot_eq_nil h <;> contradiction
    have hwhole : dropDot (hostname ++ dot :: suffix) = hostname ++ dot :: dropDot suffix := by
      have happend := dropDot_append (hostname ++ [dot]) hnothing
      simpa using happend
    have hadds : ¬ (dot ∈ hostname ∨ dropDot suffix = []) := not_or.mpr ⟨hdot, hrest⟩
    rw [hwhole, completion, if_neg hadds]

/-- Asking for a host name with a suffix is asking for the whole name, however the suffix is dotted
and wherever the writing fails. A suffix of a single dot adds nothing, and none is added where the
host name has a dot. -/
theorem suffixed_written_as_whole (writer : Writer capacity) :
    (∀ (hostname suffix : Bytes) (other : Option Bytes), hostname ≠ [] → dot ∉ hostname →
      suffix ≠ [dot] → (putHostname hostname (some suffix)).run writer =
        (putHostname (hostname ++ dot :: suffix) other).run writer) ∧
    (∀ hostname : Bytes, hostname ≠ [] → dot ∉ hostname →
      (putHostname hostname (some [dot])).run writer = (putHostname hostname none).run writer) ∧
    (∀ (hostname : Bytes) (suffix other : Option Bytes), dot ∈ hostname →
      (putHostname hostname suffix).run writer = (putHostname hostname other).run writer) := by
  refine ⟨?_, ?_, ?_⟩
  · intro hostname suffix other hsome hdot hsuffix
    have hwhole : hostname ++ dot :: suffix ≠ [] := by simp
    rw [putHostname_eq _ _ hsome, putHostname_eq _ _ hwhole, qualified_written_out hdot hsuffix]
  · intro hostname hsome hdot
    have hsame : qualified hostname (some [dot]) = qualified hostname none := by
      rw [qualified_eq_append, qualified_eq_append, completion, completion, if_pos (.inr rfl)]
    rw [putHostname_eq _ _ hsome, putHostname_eq _ _ hsome, hsame]
  · intro hostname suffix other hdot
    have hsome := List.ne_nil_of_mem hdot
    rw [putHostname_eq _ _ hsome, putHostname_eq _ _ hsome, qualified_of_mem hdot,
      qualified_of_mem hdot]

/-- Two labels in a buffer that is full after the second one's length byte. -/
theorem suffix_fills_buffer :
    let hostname : Bytes := [97]
    let suffix : Bytes := [98, 99, 46]
    let writer := Writer.start (Buffer.zero 3)
    hostname ≠ [] ∧ dot ∉ hostname ∧ suffix ≠ [dot] ∧
    (putHostname hostname (some suffix)).run writer =
      .error .bufferFull (writer.append [1, 97, 2]) ∧
    (putHostname [97, 46, 98, 99, 46] (some [100])).run writer =
      .error .bufferFull (writer.append [1, 97, 2]) := by
  intro hostname suffix writer
  have hsome : hostname ≠ [] := by decide
  have hdot : dot ∉ hostname := by decide
  have hsuffix : suffix ≠ [dot] := by decide
  have hfull : (putHostname hostname (some suffix)).run writer =
      .error .bufferFull (writer.append [1, 97, 2]) := by rfl
  have hsame := (suffixed_written_as_whole writer).1 hostname suffix (some [100]) hsome hdot hsuffix
  exact ⟨hsome, hdot, hsuffix, hfull, hsame.symm.trans hfull⟩

end StubDns.Name
