import StubDns.Proofs.Name.Digits
import StubDns.Proofs.Name.Encoding
import StubDns.Question

/-! The datagram that asks a question, as one byte string. -/
namespace StubDns.Question

variable {capacity size : Nat} {writer moved : Writer capacity} {buffer filled : Buffer capacity}
  {question : Question} {id : UInt16}

/-- The labels of the name that is asked for. -/
def names : Question → List Bytes
  | .address hostname suffix => Name.questionLabels hostname suffix
  | .name target => Name.reverseLabels target

/-- The name can be written. -/
def Encodable (question : Question) : Prop :=
  Name.ValidLabels question.names ∧ (Name.wire question.names).length ≤ 255

instance (question : Question) : Decidable question.Encodable :=
  inferInstanceAs (Decidable (_ ∧ _))

/-- Everything behind the header: the name, its type and its class. -/
def asked (question : Question) : Bytes :=
  Name.wire question.names ++
    (Bytes.ofUInt16 question.recordType.code ++ Bytes.ofUInt16 classIN)

/-- The whole query. -/
def bytes (question : Question) (id : UInt16) : Bytes := (Header.query id).bytes ++ question.asked

theorem length_bytes (question : Question) (id : UInt16) :
    (question.bytes id).length = 12 + question.asked.length := by
  rw [bytes, List.length_append]
  rfl

theorem drop_bytes (question : Question) (id : UInt16) :
    (question.bytes id).drop 12 = question.asked := List.drop_left' rfl

theorem not_validLabels_nil (suffix : Option Bytes) :
    ¬ Name.ValidLabels (Name.questionLabels [] suffix) := by
  intro h
  have hmem : [] ∈ Name.questionLabels [] suffix := by
    simp [Name.questionLabels, Name.dropDot, Name.labels]
  exact (h [] hmem).1 rfl

theorem putName_ok_iff : question.putName.run writer = .ok size moved ↔
    question.Encodable ∧ writer.position + (Name.wire question.names).length ≤ capacity ∧
      size = (Name.wire question.names).length ∧
        moved = writer.append (Name.wire question.names) := by
  have hlabels (names : List Bytes) : (Name.putLabels 0 names).run writer = .ok size moved ↔ _ :=
    Name.putLabels_ok_iff (by omega)
  simp only [Nat.zero_add] at hlabels
  rw [Encodable, and_assoc, ← hlabels]
  cases question with
  | name target =>
    rw [putName, Name.putReverse_eq_putLabels]
    rfl
  | address hostname suffix =>
    rw [putName, Name.putHostname, run_throw_if_ok_iff]
    constructor
    · intro h
      exact h.2
    · intro h
      refine ⟨?_, h⟩
      rintro rfl
      exact not_validLabels_nil suffix ((hlabels _).mp h).1

theorem position_run {writer : Writer capacity} :
    Writing.position.run writer = .ok writer.position writer := rfl

theorem length_asked (question : Question) :
    question.asked.length = (Name.wire question.names).length + 4 := by
  rw [asked, List.length_append]
  rfl

/-- What is asked tells the type and the encoded name. -/
theorem of_asked_eq {other : Question} (h : question.asked = other.asked) :
    question.recordType = other.recordType ∧
      Name.wire question.names = Name.wire other.names := by
  obtain ⟨hwire, htail⟩ := List.append_inj' h rfl
  have hcode := Bytes.ofUInt16_injective (List.append_inj htail rfl).1
  refine ⟨?_, hwire⟩
  cases htype : question.recordType <;> cases htype' : other.recordType <;>
    simp_all [RecordType.code]

theorem append_parts (hroom : writer.position + (question.bytes id).length ≤ capacity) :
    (((writer.append (Header.query id).bytes).append (Name.wire question.names)).append
      (Bytes.ofUInt16 question.recordType.code)).append (Bytes.ofUInt16 classIN) =
        writer.append (question.bytes id) := by
  rw [length_bytes, length_asked] at hroom
  rw [Writer.append_append, Writer.append_append, ← asked, Writer.append_append, ← bytes]
  · rw [← bytes, length_bytes, length_asked]
    exact hroom
  · rw [← asked, length_asked, Writer.position_append, Header.length_bytes, Header.size]
    omega
  · simp only [Writer.position_append, List.length_append, Bytes.length_ofUInt16,
      Header.length_bytes, Header.size]
    omega

theorem put_ok_iff : (question.put id).run writer = .ok size moved ↔
    question.Encodable ∧ writer.position + (question.bytes id).length ≤ capacity ∧
      size = writer.position + (question.bytes id).length ∧
        moved = writer.append (question.bytes id) := by
  have hlen := length_bytes question id
  rw [length_asked] at hlen
  simp only [put, run_bind_ok_iff]
  constructor
  · rintro ⟨_, _, hheader, _, _, hname, _, _, htype, _, _, hclass, hposition⟩
    obtain ⟨_, rfl⟩ := (Header.writes_put _ _ _).mp hheader
    obtain ⟨hencodable, _, _, rfl⟩ := putName_ok_iff.mp hname
    obtain ⟨_, rfl⟩ := Writing.put_ok_iff.mp htype
    obtain ⟨hroom, rfl⟩ := Writing.put_ok_iff.mp hclass
    simp only [Writer.position_append, Header.length_bytes, Header.size,
      Bytes.length_ofUInt16] at hroom
    have hall : writer.position + (question.bytes id).length ≤ capacity := by omega
    rw [append_parts hall, position_run, EStateM.Result.ok.injEq] at hposition
    exact ⟨hencodable, hall, hposition.1.symm, hposition.2.symm⟩
  · rintro ⟨hencodable, hroom, rfl, rfl⟩
    have hheader := (Header.writes_put (Header.query id) writer _).mpr
      ⟨by rw [Header.length_bytes, Header.size]; omega, rfl⟩
    refine ⟨(), _, hheader, _, _, putName_ok_iff.mpr ⟨hencodable, ?_, rfl, rfl⟩, (), _,
      Writing.put_ok_iff.mpr ⟨?_, rfl⟩, (), _, Writing.put_ok_iff.mpr ⟨?_, rfl⟩, ?_⟩
    · rw [Writer.position_append, Header.length_bytes, Header.size]
      omega
    · simp only [Writer.position_append, Header.length_bytes, Header.size, Bytes.length_ofUInt16]
      omega
    · simp only [Writer.position_append, Header.length_bytes, Header.size, Bytes.length_ofUInt16]
      omega
    · rw [append_parts hroom]
      rfl

/-- A query is built exactly of a name that can be written, where there is room for all of it, and
the same query whatever the buffer held. -/
theorem build_ok_iff : question.build id buffer = (.ok size, filled) ↔
    question.Encodable ∧ (question.bytes id).length ≤ capacity ∧
      size = (question.bytes id).length ∧ filled = buffer.overwrite 0 (question.bytes id) := by
  have hput (writer : Writer capacity) :
      (question.put id).run (Writer.start buffer) = .ok size writer ↔ _ := put_ok_iff
  simp only [Writer.start, Writer.append, Nat.zero_add] at hput
  rw [build]
  constructor
  · intro h
    split at h
    · next count writer hwriter =>
      obtain ⟨hcount, rfl⟩ := Prod.mk.inj h
      obtain rfl := Except.ok.inj hcount
      obtain ⟨hencodable, hroom, hsize, rfl⟩ := (hput _).mp hwriter
      exact ⟨hencodable, hroom, hsize, rfl⟩
    · cases (Prod.mk.inj h).1
  · rintro ⟨hencodable, hroom, hsize, rfl⟩
    simp only [Writer.start, (hput _).mpr ⟨hencodable, hroom, hsize, rfl⟩]

/-- What is sent of the buffer after a build. -/
theorem take_of_build (h : question.build id buffer = (.ok size, filled)) :
    filled.bytes.take size = question.bytes id := by
  obtain ⟨_, hroom, rfl, rfl⟩ := build_ok_iff.mp h
  rw [Buffer.bytes_overwrite (by omega), List.take_zero, List.nil_append, List.take_left]

end StubDns.Question
