import StubDns.Name.Encode
import StubDns.Proofs.Name.Grammar
import StubDns.Proofs.Wire.Writing

/-! What writing a name puts out: the labels one after the other, uncompressed. -/
namespace StubDns.Name

variable {capacity encoded size : Nat} {writer moved : Writer capacity} {label : Bytes}
  {names : List Bytes}

/-- The uncompressed form of the name with these labels. -/
def wire (names : List Bytes) : Bytes :=
  (names.flatMap fun label => UInt8.ofNat label.length :: label) ++ [0]

/-- Every label can be written behind a length byte. -/
def ValidLabels (names : List Bytes) : Prop := ∀ label ∈ names, label ≠ [] ∧ label.length ≤ 63

instance (names : List Bytes) : Decidable (ValidLabels names) :=
  inferInstanceAs (Decidable (∀ label ∈ names, label ≠ [] ∧ label.length ≤ 63))

theorem wire_cons (label : Bytes) (names : List Bytes) :
    wire (label :: names) = (UInt8.ofNat label.length :: label) ++ wire names := by
  simp only [wire, List.flatMap_cons, List.append_assoc]

theorem length_wire_cons (label : Bytes) (names : List Bytes) :
    (wire (label :: names)).length = label.length + 1 + (wire names).length := by
  rw [wire_cons, List.length_append, List.length_cons]

theorem length_wire_pos (names : List Bytes) : 0 < (wire names).length := by
  simp [wire]

/-- The length byte of a label that may be written tells its length. -/
theorem toNat_sizeByte (h : label.length ≤ 63) :
    (UInt8.ofNat label.length).toNat = label.length := by
  rw [UInt8.toNat_ofNat']
  omega

theorem wireName_wire (h : ValidLabels names) : WireName (wire names) := by
  induction names with
  | nil => exact .root
  | cons label names ih =>
    obtain ⟨hlabel, hnames⟩ := List.forall_mem_cons.mp h
    have hpos := List.length_pos_iff.mpr hlabel.1
    have hsize := toNat_sizeByte hlabel.2
    rw [wire_cons]
    exact .label (by omega) (by omega) hsize.symm (ih hnames)

theorem putLabel_ok_iff {done : Unit} :
    (putLabel encoded label).run writer = .ok done moved ↔
      label ≠ [] ∧ label.length ≤ 63 ∧ encoded + label.length + 2 < 256 ∧
        writer.position + (label.length + 1) ≤ capacity ∧
          moved = writer.append (UInt8.ofNat label.length :: label) := by
  have hput := ((Writing.writes_put [UInt8.ofNat label.length]).then
    (Writing.writes_put label)) writer moved
  rw [List.singleton_append, List.length_cons] at hput
  rw [putLabel, run_throw_if_ok_iff, run_throw_if_ok_iff, run_throw_if_ok_iff]
  simp only [labelMax, sizeMax]
  constructor
  · rintro ⟨hsome, hlabel, hsize, h⟩
    exact ⟨hsome, by omega, by omega, hput.mp h⟩
  · rintro ⟨hsome, hlabel, hsize, h⟩
    exact ⟨hsome, by omega, by omega, hput.mpr h⟩

theorem putLabels_ok_iff (hencoded : encoded < 255) :
    (putLabels encoded names).run writer = .ok size moved ↔
      ValidLabels names ∧ encoded + (wire names).length ≤ 255 ∧
        writer.position + (wire names).length ≤ capacity ∧
          size = encoded + (wire names).length ∧ moved = writer.append (wire names) := by
  induction names generalizing encoded writer with
  | nil =>
    rw [putLabels, run_bind_ok_iff]
    constructor
    · rintro ⟨_, _, hput, hpure⟩
      obtain ⟨hroom, rfl⟩ := Writing.put_ok_iff.mp hput
      obtain ⟨rfl, rfl⟩ := run_pure_ok_iff.mp hpure
      exact ⟨nofun, hencoded, hroom, rfl, rfl⟩
    · rintro ⟨_, _, hroom, rfl, rfl⟩
      exact ⟨(), _, Writing.put_ok_iff.mpr ⟨hroom, rfl⟩, rfl⟩
  | cons label names ih =>
    have hrest := length_wire_pos names
    have hjoin (hroom : writer.position + (label.length + 1 + (wire names).length) ≤ capacity) :
        (writer.append (UInt8.ofNat label.length :: label)).append (wire names) =
          writer.append (wire (label :: names)) := by
      rw [wire_cons, Writer.append_append]
      rw [List.length_append, List.length_cons]
      exact hroom
    rw [putLabels, run_bind_ok_iff, length_wire_cons, ValidLabels, List.forall_mem_cons]
    constructor
    · rintro ⟨_, _, hput, hputs⟩
      obtain ⟨hsome, hlabel, hsize, hroom, rfl⟩ := putLabel_ok_iff.mp hput
      obtain ⟨hnames, hbound, hrooms, rfl, rfl⟩ := (ih (by omega)).mp hputs
      rw [Writer.position_append, List.length_cons] at hrooms
      exact ⟨⟨⟨hsome, hlabel⟩, hnames⟩, by omega, by omega, by omega, hjoin (by omega)⟩
    · rintro ⟨⟨⟨hsome, hlabel⟩, hnames⟩, hbound, hroom, rfl, rfl⟩
      refine ⟨(), _, putLabel_ok_iff.mpr ⟨hsome, hlabel, by omega, by omega, rfl⟩,
        (ih (by omega)).mpr ⟨hnames, by omega, ?_, by omega, (hjoin hroom).symm⟩⟩
      rw [Writer.position_append, List.length_cons]
      omega

end StubDns.Name
