import StubDns.Proofs.Name.Walk
import StubDns.Proofs.Query

/-! Encoded names, compressed or not, mean what was encoded. What was written for a host name is
skipped byte by byte, and decodes to the text again. -/
namespace StubDns.Name

variable {message data hostname : Bytes} {suffix : Option Bytes} {names lead tail : List Bytes}
  {position start hops : Nat}

/-- Labels behind their length bytes, with nothing that ends the name. -/
def prefixed (names : List Bytes) : Bytes :=
  names.flatMap fun label => UInt8.ofNat label.length :: label

theorem wire_eq_prefixed (names : List Bytes) : wire names = prefixed names ++ [0] := rfl

theorem prefixed_cons (label : Bytes) (names : List Bytes) :
    prefixed (label :: names) = (UInt8.ofNat label.length :: label) ++ prefixed names :=
  List.flatMap_cons

theorem length_wire (names : List Bytes) : (wire names).length = charge names + 1 := by
  induction names with
  | nil => rfl
  | cons label names ih =>
    rw [length_wire_cons, ih, charge]
    omega

/-- Labels side by side lead from the first length byte to behind the last label. -/
theorem leads_prefixed (hnames : ValidLabels names)
    (hheld : message.HoldsAt position (prefixed names)) :
    Leads message position names 0 (position + (prefixed names).length) := by
  induction names generalizing position with
  | nil => exact .here
  | cons label names ih =>
    obtain ⟨hlabel, hnames⟩ := List.forall_mem_cons.mp hnames
    have hpos : 0 < label.length := List.length_pos_iff.mpr hlabel.1
    have hsize := toNat_sizeByte hlabel.2
    rw [prefixed_cons] at hheld ⊢
    obtain ⟨hfront, hback⟩ := Bytes.holdsAt_append.mp hheld
    have hnext : position + (UInt8.ofNat label.length :: label).length =
        position + 1 + (UInt8.ofNat label.length).toNat := by
      rw [List.length_cons, hsize]
      omega
    rw [hnext] at hback
    rw [List.length_append, ← Nat.add_assoc, hnext]
    exact .label (by omega) (by omega) hsize.symm hfront (ih hnames hback)

/-- Labels in front of a name belong to it. -/
theorem denotes_prefixed (hlead : ValidLabels lead)
    (hheld : message.HoldsAt position (prefixed lead))
    (htail : Denotes message (position + (prefixed lead).length) tail hops) :
    Denotes message position (lead ++ tail) hops := by
  have hdenotes := (leads_prefixed hlead hheld).denotes htail
  rwa [Nat.zero_add] at hdenotes

/-- An uncompressed name stands for its labels, wherever it is in a message. -/
theorem denotes_wire (hnames : ValidLabels names) (hheld : message.HoldsAt position (wire names)) :
    Denotes message position names 0 := by
  rw [wire_eq_prefixed] at hheld
  obtain ⟨hlead, hzero⟩ := Bytes.holdsAt_append.mp hheld
  have hroot : Denotes message (position + (prefixed names).length) [] 0 := .root hzero
  have hdenotes := denotes_prefixed hnames hlead hroot
  rwa [List.append_nil] at hdenotes

theorem legible_wire (hnames : ValidLabels names) (hsome : names ≠ [])
    (hsize : (wire names).length ≤ 257) (hheld : message.HoldsAt position (wire names)) :
    Legible message position names := by
  have hcharge := length_wire names
  exact ⟨0, denotes_wire hnames hheld, hsome, Nat.zero_le _, by omega⟩

/-- The two bytes of a pointer to an offset below 0x4000. -/
def pointerTo (target : Nat) : Bytes := [UInt8.ofNat (192 + target / 256), UInt8.ofNat (target % 256)]

/-- `data` is a name with these labels as a server may write it: in full, or as a leading part and a
pointer to where in `message` the other labels stand in full. -/
inductive Spells (message : Bytes) : Bytes → List Bytes → Prop
  | full {names : List Bytes} : Spells message (wire names) names
  | compressed {lead tail : List Bytes} {target : Nat} : tail ≠ [] → target < 0x4000 →
      message.HoldsAt target (wire tail) →
      Spells message (prefixed lead ++ pointerTo target) (lead ++ tail)

theorem pointerTo_eq {target : Nat} (hlt : target < 0x4000) :
    ∃ high low, pointerTo target = [high, low] ∧ 192 ≤ high.toNat ∧
      Name.target high low = target := by
  have hhigh : (UInt8.ofNat (192 + target / 256)).toNat = 192 + target / 256 := by
    rw [UInt8.toNat_ofNat']
    omega
  have hlow : (UInt8.ofNat (target % 256)).toNat = target % 256 := by
    rw [UInt8.toNat_ofNat']
    omega
  refine ⟨_, _, rfl, by omega, ?_⟩
  rw [Name.target, hhigh, hlow]
  omega

theorem denotes_pointerTo {target : Nat} (hlt : target < 0x4000)
    (hheld : message.HoldsAt start (pointerTo target)) (htarget : target < message.length)
    (h : Denotes message target names hops) : Denotes message start names (hops + 1) := by
  obtain ⟨high, low, heq, hhigh, rfl⟩ := pointerTo_eq hlt
  rw [heq] at hheld
  exact .pointer hhigh hheld htarget h

/-- Whichever way it is written, a name stands for its labels, by way of one pointer at most. -/
theorem denotes_of_spells (hspells : Spells message data names) (hnames : ValidLabels names)
    (hheld : message.HoldsAt start data) : ∃ hops ≤ 1, Denotes message start names hops := by
  cases hspells with
  | full => exact ⟨0, Nat.zero_le 1, denotes_wire hnames hheld⟩
  | @compressed lead tail target _ hlt htail =>
    obtain ⟨hlead, hvalid⟩ := List.forall_mem_append.mp hnames
    obtain ⟨hfront, hpointer⟩ := Bytes.holdsAt_append.mp hheld
    have hinside : target < message.length := by
      have := htail.le_length
      have := length_wire_pos tail
      omega
    have hrest := denotes_pointerTo hlt hpointer hinside (denotes_wire hvalid htail)
    exact ⟨1, Nat.le_refl 1, denotes_prefixed hlead hfront hrest⟩

theorem legible_of_spells (hspells : Spells message data names) (hnames : ValidLabels names)
    (hsome : names ≠ []) (htext : (text names).length ≤ 253)
    (hheld : message.HoldsAt start data) : Legible message start names := by
  obtain ⟨hops, hhops, hdenotes⟩ := denotes_of_spells hspells hnames hheld
  have hcharge := length_text hsome
  exact ⟨hops, hdenotes, hsome, by omega, by omega⟩

theorem questionLabels_ne_nil (hostname : Bytes) (suffix : Option Bytes) :
    questionLabels hostname suffix ≠ [] := by
  rw [questionLabels_eq]
  exact List.splitOn_ne_nil _ _

/-- Joining the labels of a question with dots undoes the splitting. -/
theorem text_questionLabels (hostname : Bytes) (suffix : Option Bytes) :
    text (questionLabels hostname suffix) = qualified hostname suffix := by
  rw [questionLabels_eq]
  exact List.intercalate_splitOn dot

/-- What a suffix adds to a host name: nothing where the host name has a dot, else a dot and all of
the suffix but its own trailing dot, if anything is left of it. -/
def completion (hostname : Bytes) : Option Bytes → Bytes
  | none => []
  | some suffix =>
    if dot ∈ hostname ∨ dropDot suffix = [] then [] else dot :: dropDot suffix

theorem qualified_eq_append (hostname : Bytes) (suffix : Option Bytes) :
    qualified hostname suffix = dropDot hostname ++ completion hostname suffix := by
  by_cases hdot : dot ∈ hostname
  · cases suffix <;> simp [qualified, suffixFor, completion, hdot]
  · cases suffix with
    | none => simp [qualified, suffixFor, completion]
    | some suffix =>
      by_cases hempty : dropDot suffix = []
      · simp [qualified, suffixFor, completion, Option.filter, hempty]
      · simp [qualified, suffixFor, completion, Option.filter, hdot, hempty]

/-- A host name that was encoded anywhere in a buffer is skipped in just as many bytes as were
written, and decoded to its qualified text. -/
theorem hostname_reads_back {capacity size : Nat} {writer moved : Writer capacity}
    (h : (putHostname hostname suffix).run writer = .ok size moved) :
    size ≤ 255 ∧ moved.position = writer.position + size ∧
    moved.buffer.bytes.take writer.position = writer.buffer.bytes.take writer.position ∧
    ∀ after : Bytes,
      let message := moved.written ++ after
      Reading.skipName.run ⟨message, writer.position⟩ =
        .ok () ⟨message, writer.position + size⟩ ∧
      ∀ (room : Nat) (out : Buffer room), 256 ≤ room →
        let text := dropDot hostname ++ completion hostname suffix
        (copy message writer.position out).1 = .ok text.length ∧
          (copy message writer.position out).2.bytes.take text.length = text := by
  have hput : (Question.address hostname suffix).putName.run writer = .ok size moved := h
  obtain ⟨⟨hnames, hsize⟩, hroom, rfl, rfl⟩ := Question.putName_ok_iff.mp hput
  rw [Question.names] at hnames hsize hroom ⊢
  have hfront : writer.written.length = writer.position := by
    rw [Writer.length_written]
    omega
  refine ⟨hsize, rfl, Writer.take_append hroom, ?_⟩
  intro after message
  have hheld : message.HoldsAt writer.position (wire (questionLabels hostname suffix)) :=
    Bytes.holdsAt_iff.mpr ⟨writer.written, after, by rw [← Writer.written_append hroom], hfront⟩
  constructor
  · exact Reading.skipName_ok_iff.mpr ⟨_, wireName_wire hnames, hheld, rfl⟩
  · intro room out hout
    have hlegible := legible_wire hnames (questionLabels_ne_nil _ _) (by omega) hheld
    have hcopy := copy_of_legible hout hlegible out
    rwa [text_questionLabels, qualified_eq_append] at hcopy

/-- A suffix with a trailing dot, behind two bytes that were there before. -/
theorem suffixed_hostname_reads_back :
    let writer : Writer 9 := ⟨.ofBytes [1, 2, 3, 4, 5, 6, 7, 8, 9], 2⟩
    let message : Bytes := [1, 2, 1, 97, 1, 98, 0, 255]
    (∃ moved, (putHostname [97] (some [98, 46])).run writer = .ok 5 moved ∧
      moved.written ++ [255] = message) ∧
    Reading.skipName.run ⟨message, 2⟩ = .ok () ⟨message, 7⟩ ∧
    (copy message 2 (Buffer.zero 256)).1 = .ok 3 ∧
    (copy message 2 (Buffer.zero 256)).2.bytes.take 3 = [97, 46, 98] := by
  intro writer message
  have hput : (putHostname [97] (some [98, 46])).run writer =
      .ok 5 (writer.append [1, 97, 1, 98, 0]) := by rfl
  obtain ⟨_, _, _, hreads⟩ := hostname_reads_back hput
  obtain ⟨hskip, hcopy⟩ := hreads [255]
  exact ⟨⟨_, hput, rfl⟩, hskip, hcopy 256 (Buffer.zero 256) (Nat.le_refl 256)⟩

end StubDns.Name
