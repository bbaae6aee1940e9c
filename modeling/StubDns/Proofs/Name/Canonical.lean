import StubDns.Proofs.Name.Hostname

/-! Names have one form in full. Encoding the text of a name, however the name was compressed, gives
back its labels in full, so that names with the same text are names with the same form in full. -/
namespace StubDns.Name

variable {message decoded : Bytes} {start : Nat} {names : List Bytes} {suffix : Option Bytes}
  {capacity : Nat}

/-- The name at `start` has the labels `names` and is decoded to `decoded`. The labels can be told
from that text, and it is no longer than the text of a name that can be written. -/
structure Recoverable (message : Bytes) (start : Nat) (names : List Bytes) (decoded : Bytes) :
    Prop where
  denotes : ∃ hops, Denotes message start names hops
  copied : ∃ (capacity : Nat) (out : Buffer capacity),
    (copy message start out).1 = .ok decoded.length ∧
      (copy message start out).2.bytes.take decoded.length = decoded
  dotless : ∀ label ∈ names, dot ∉ label
  length_le : decoded.length ≤ 253

theorem Denotes.validLabels {hops : Nat} (h : Denotes message start names hops) :
    ValidLabels names := by
  induction h with
  | root => exact List.forall_mem_nil _
  | label hpos hlt hlen _ _ ih =>
    exact List.forall_mem_cons.mpr ⟨⟨List.ne_nil_of_length_pos (by omega), by omega⟩, ih⟩
  | pointer _ _ _ _ ih => exact ih

/-- A name has one form in full, and that form is of one name. -/
theorem wire_injective {others : List Bytes} (hnames : ValidLabels names)
    (hothers : ValidLabels others) (h : wire names = wire others) : names = others := by
  have hheld : (wire names).HoldsAt 0 (wire names) := by
    simpa using Bytes.holdsAt_append_left [] (wire names) []
  have hheld' : (wire names).HoldsAt 0 (wire others) := by rwa [← h]
  exact ((denotes_wire hnames hheld).unique (denotes_wire hothers hheld')).1

/-- Splitting at the dots undoes the joining of labels that have none. -/
theorem labels_text (hsome : names ≠ []) (hdotless : ∀ label ∈ names, dot ∉ label) :
    labels (text names) = names := List.splitOn_intercalate dot hdotless hsome

/-- A dot at the end of a text, like a text of nothing, leaves a label without bytes. -/
theorem dropDot_text (hsome : names ≠ []) (hnames : ValidLabels names)
    (hdotless : ∀ label ∈ names, dot ∉ label) :
    text names ≠ [] ∧ dropDot (text names) = text names := by
  have hlabels := labels_text hsome hdotless
  constructor
  · intro hempty
    have hmem : [] ∈ names := by
      rw [← hlabels, hempty]
      exact List.mem_singleton_self _
    exact (hnames [] hmem).1 rfl
  · apply if_neg
    intro hlast
    obtain ⟨front, htext⟩ := List.getLast?_eq_some_iff.mp hlast
    have hmem : [] ∈ names := by
      rw [← hlabels, htext, labels_append_dot]
      exact List.mem_append_right _ (List.mem_singleton_self _)
    exact (hnames [] hmem).1 rfl

/-- A name that needs no suffix, or is given none, is written as it stands, less a trailing dot. -/
theorem qualified_of_none_or_mem (h : suffix = none ∨ dot ∈ decoded) :
    qualified decoded suffix = dropDot decoded := by
  obtain rfl | hdot := h
  · rw [qualified_eq_append]
    exact List.append_nil _
  · exact qualified_of_mem hdot suffix

namespace Recoverable

theorem eq_text (h : Recoverable message start names decoded) :
    names ≠ [] ∧ decoded = text names := by
  obtain ⟨⟨hops, hdenotes⟩, ⟨capacity, out, hresult, htake⟩, -, -⟩ := h
  obtain ⟨hcapacity, labels, hlegible, hlength⟩ := legible_of_copy hresult
  have hcopy := (copy_of_legible hcapacity hlegible out).2
  obtain ⟨_, hlabels, hsome, -⟩ := hlegible
  obtain ⟨rfl, -⟩ := hlabels.unique hdenotes
  rw [← hlength, htake] at hcopy
  exact ⟨hsome, hcopy⟩

theorem validLabels (h : Recoverable message start names decoded) : ValidLabels names := by
  obtain ⟨hops, hdenotes⟩ := h.denotes
  exact hdenotes.validLabels

theorem labels_eq (h : Recoverable message start names decoded) : labels decoded = names := by
  obtain ⟨hsome, rfl⟩ := h.eq_text
  exact labels_text hsome h.dotless

theorem length_wire (h : Recoverable message start names decoded) :
    (wire names).length = decoded.length + 2 := by
  rw [← h.labels_eq, length_wire_labels]

/-- The text of a name is written as the labels of that name. -/
theorem run_putHostname (h : Recoverable message start names decoded)
    (hsuffix : suffix = none ∨ dot ∈ decoded) {writer : Writer capacity}
    (hroom : writer.position + 255 ≤ capacity) :
    (putHostname decoded suffix).run writer =
      .ok (wire names).length (writer.append (wire names)) := by
  obtain ⟨hsome, htext⟩ := h.eq_text
  obtain ⟨hnonempty, hcomplete⟩ := dropDot_text hsome h.validLabels h.dotless
  rw [← htext] at hnonempty hcomplete
  rw [putHostname_eq decoded suffix hnonempty, qualified_of_none_or_mem hsuffix, hcomplete,
    h.labels_eq]
  have hwire := h.length_wire
  have hbound := h.length_le
  exact (putLabels_ok_iff (Nat.zero_lt_succ 254)).mpr
    ⟨h.validLabels, by omega, by omega, (Nat.zero_add _).symm, rfl⟩

/-- Wherever the labels stand in full, they are decoded to the same text. -/
theorem copy_wire (h : Recoverable message start names decoded) {other : Bytes} {place : Nat}
    (hheld : other.HoldsAt place (wire names)) (hcapacity : 256 ≤ capacity)
    (out : Buffer capacity) :
    (copy other place out).1 = .ok decoded.length ∧
      (copy other place out).2.bytes.take decoded.length = decoded := by
  obtain ⟨hsome, rfl⟩ := h.eq_text
  have hwire := h.length_wire
  have hbound := h.length_le
  exact copy_of_legible hcapacity (legible_wire h.validLabels hsome (by omega) hheld) out

end Recoverable

/-- Encoding the text of a name undoes the decoding: whatever pointers the name was made of, it is
written as its labels in full, and these are decoded to the same text. So names have the same text
just when they are the same in full. Whether the text is well-formed UTF-8 does not matter here. -/
theorem encoding_undoes_decoding (h : Recoverable message start names decoded) :
    (∀ (capacity : Nat) (writer : Writer capacity) (suffix : Option Bytes),
      suffix = none ∨ dot ∈ decoded → writer.position + 255 ≤ capacity →
        (putHostname decoded suffix).run writer =
          .ok (wire names).length (writer.append (wire names))) ∧
    (∀ (other : Bytes) (place capacity : Nat) (out : Buffer capacity),
      other.HoldsAt place (wire names) → 256 ≤ capacity →
        (copy other place out).1 = .ok decoded.length ∧
          (copy other place out).2.bytes.take decoded.length = decoded) ∧
    ∀ (other : Bytes) (place : Nat) (others : List Bytes) (decoded' : Bytes),
      Recoverable other place others decoded' →
        (decoded = decoded' ↔ wire names = wire others) := by
  refine ⟨?_, ?_, ?_⟩
  · intro capacity writer suffix hsuffix hroom
    exact h.run_putHostname hsuffix hroom
  · intro other place capacity out hheld hcapacity
    exact h.copy_wire hheld hcapacity out
  · intro other place others decoded' h'
    constructor
    · rintro rfl
      rw [← h.labels_eq, ← h'.labels_eq]
    · intro hsame
      rw [h.eq_text.2, h'.eq_text.2, wire_injective h.validLabels h'.validLabels hsame]

/-- A pointer to a zero byte behind two labels, and a pointer between the same labels elsewhere. -/
theorem same_text_behind_pointers :
    let message : Bytes := [1, 97, 1, 98, 192, 6, 0]
    let other : Bytes := [1, 98, 0, 255, 1, 97, 192, 0]
    let decoded : Bytes := [97, 46, 98]
    Recoverable message 0 [[97], [98]] decoded ∧ Recoverable other 4 [[97], [98]] decoded ∧
    (putHostname decoded (some [99])).run (Writer.start (Buffer.zero 255)) =
      .ok 5 ((Writer.start (Buffer.zero 255)).append [1, 97, 1, 98, 0]) ∧
    ((copy [1, 97, 1, 98, 0] 0 (Buffer.zero 256)).1 = .ok 3 ∧
      (copy [1, 97, 1, 98, 0] 0 (Buffer.zero 256)).2.bytes.take 3 = decoded) ∧
    (decoded = decoded ↔ wire [[97], [98]] = wire [[97], [98]]) := by
  intro message other decoded
  have hdotless : ∀ label ∈ [[97], [98]], dot ∉ label := by decide
  have hzero : Denotes message 6 [] 0 := .root rfl
  have hroot : Denotes message 4 [] 1 :=
    @Denotes.pointer _ 4 192 6 [] 0 (by decide) rfl (by decide) hzero
  have hmessage : Denotes message 0 [[97], [98]] 1 :=
    @Denotes.label _ 0 1 [97] [[98]] 1 (by decide) (by decide) rfl rfl
      (@Denotes.label _ 2 1 [98] [] 1 (by decide) (by decide) rfl rfl hroot)
  have hlast : Denotes other 0 [[98]] 0 :=
    @Denotes.label _ 0 1 [98] [] 0 (by decide) (by decide) rfl rfl (.root rfl)
  have hother : Denotes other 4 [[97], [98]] 1 :=
    @Denotes.label _ 4 1 [97] [[98]] 1 (by decide) (by decide) rfl rfl
      (@Denotes.pointer _ 6 192 0 [[98]] 0 (by decide) rfl (by decide) hlast)
  have hcopied (message : Bytes) (start : Nat) (hops : Nat) (hhops : hops ≤ 128)
      (h : Denotes message start [[97], [98]] hops) :
      Recoverable message start [[97], [98]] decoded := by
    have hlegible : Legible message start [[97], [98]] := ⟨hops, h, by decide, hhops, by decide⟩
    exact ⟨⟨hops, h⟩, ⟨256, Buffer.zero 256, copy_of_legible (Nat.le_refl 256) hlegible _⟩,
      hdotless, by decide⟩
  have hfirst := hcopied message 0 1 (by decide) hmessage
  have hsecond := hcopied other 4 1 (by decide) hother
  obtain ⟨hwritten, hread, hsame⟩ := encoding_undoes_decoding hfirst
  exact ⟨hfirst, hsecond, hwritten 255 _ (some [99]) (.inr (by decide)) (by decide),
    hread [1, 97, 1, 98, 0] 0 256 (Buffer.zero 256) rfl (Nat.le_refl 256),
    hsame other 4 _ decoded hsecond⟩

end StubDns.Name
