import StubDns.Proofs.Echo
import StubDns.Proofs.Name.Reverse

/-! What a query says to those who read it: just what was asked. And when there is a query: a buffer
of 271 bytes has room for every name that can be written at all. -/
namespace StubDns

/-- `reason` is what is wrong with a host name that no buffer is large enough for. -/
def Name.Fault (hostname : Bytes) (suffix : Option Bytes) (reason : WireError) : Prop :=
  hostname = [] ∧ reason = .emptyName ∨
    hostname ≠ [] ∧ FirstOffence 0 (labels (dropDot hostname ++ completion hostname suffix)) reason

/-- A reader of `query` finds the header of a recursive query with this id and one question, and in
the question the text of a name, a type and the Internet class, with nothing behind them. -/
structure Asks (query : Bytes) (id code : UInt16) (text : Bytes) : Prop where
  header : Header.read.valueAt query 0 =
    .ok { id, flags := 0x0100, qdcount := 1, ancount := 0, nscount := 0, arcount := 0 }
  name : ∀ (room : Nat) (out : Buffer room), 256 ≤ room →
    (Name.copy query 12 out).1 = .ok text.length ∧
      (Name.copy query 12 out).2.bytes.take text.length = text
  skip : Reading.skipName.run ⟨query, 12⟩ = .ok () ⟨query, query.length - 4⟩
  ending : query.drop (query.length - 4) = Bytes.ofUInt16 code ++ Bytes.ofUInt16 1
  length_eq : query.length = text.length + 18
  length_le : query.length ≤ 271

namespace Question
variable {capacity size : Nat} {buffer filled : Buffer capacity} {question : Question} {id : UInt16}
  {reason : WireError}

/-- The text of the name that is asked for. -/
def text : Question → Bytes
  | .address hostname suffix => Name.dropDot hostname ++ Name.completion hostname suffix
  | .name target => Name.reverseText target

theorem text_eq (question : Question) : question.text = Name.text question.names := by
  cases question with
  | address hostname suffix =>
    rw [text, names, Name.text_questionLabels, Name.qualified_eq_append]
  | name target => exact Name.reverseText_eq_text target

theorem names_ne_nil (question : Question) : question.names ≠ [] := by
  cases question with
  | address hostname suffix => exact Name.questionLabels_ne_nil hostname suffix
  | name target => exact List.append_ne_nil_of_right_ne_nil _ (List.cons_ne_nil _ _)

theorem length_wire_names (question : Question) :
    (Name.wire question.names).length = question.text.length + 2 := by
  rw [Name.length_wire, text_eq, ← Name.length_text question.names_ne_nil]

theorem asks_bytes (h : question.Encodable) (id : UInt16) :
    Asks (question.bytes id) id question.recordType.code question.text := by
  have hwire := question.length_wire_names
  have hasked := question.length_asked
  have hlength := question.length_bytes id
  have hsize := h.2
  have hfour : (question.bytes id).length - 4 = 12 + (Name.wire question.names).length := by omega
  have hname : (question.bytes id).HoldsAt 12 (Name.wire question.names) :=
    (Bytes.holdsAt_append.mp (Response.holdsAt_asked question id)).1
  constructor
  case header =>
    have hheld : (question.bytes id).HoldsAt 0 (Header.query id).bytes :=
      Bytes.holdsAt_append_left [] (Header.query id).bytes question.asked
    have hread : Header.read.run ⟨question.bytes id, 0⟩ = .ok (Header.query id) _ :=
      Header.read_ok_iff.mpr ⟨hheld, rfl⟩
    rw [Reading.valueAt, hread]
    rfl
  case name =>
    intro room out hroom
    have hlegible := Name.legible_wire h.1 question.names_ne_nil (by omega) hname
    rw [text_eq]
    exact Name.copy_of_legible hroom hlegible out
  case skip =>
    rw [hfour]
    exact Reading.skipName_ok_iff.mpr ⟨_, Name.wireName_wire h.1, hname, rfl⟩
  case ending =>
    rw [hfour, ← List.drop_drop, drop_bytes, asked, List.drop_left]
    rfl
  case length_eq => omega
  case length_le => omega

/-- What was built for a question reads back as it, and the buffer behind it is as it was. -/
theorem asks_of_build (h : question.build id buffer = (.ok size, filled)) :
    (filled.bytes.take size).length = size ∧
      Asks (filled.bytes.take size) id question.recordType.code question.text ∧
        filled.bytes.drop size = buffer.bytes.drop size := by
  have hquery := take_of_build h
  obtain ⟨hencodable, hroom, rfl, rfl⟩ := build_ok_iff.mp h
  rw [hquery]
  refine ⟨rfl, asks_bytes hencodable id, ?_⟩
  rw [Buffer.bytes_overwrite (by omega), List.take_zero, List.nil_append, List.drop_left,
    Nat.zero_add]

/-- The writer behind the header. -/
def nameWriter (id : UInt16) (buffer : Buffer capacity) : Writer capacity :=
  (Writer.start buffer).append (Header.query id).bytes

theorem position_nameWriter (id : UInt16) (buffer : Buffer capacity) :
    (nameWriter id buffer).position = 12 := rfl

theorem build_of_putName_error {moved : Writer capacity} (hroom : 12 ≤ capacity)
    (h : question.putName.run (nameWriter id buffer) = .error reason moved) :
    question.build id buffer = (.error reason, moved.buffer) := by
  have hheader : (Header.query id).put.run (Writer.start buffer) =
      .ok () (nameWriter id buffer) :=
    (Header.writes_put _ _ _).mpr ⟨hroom, rfl⟩
  have hput : (question.put id).run (Writer.start buffer) = .error reason moved := by
    rw [put, EStateM.run_bind, hheader]
    dsimp only
    rw [EStateM.run_bind, h]
  rw [build, hput]

/-- Where there is room for every query, the name is all that a build can fail for. -/
theorem build_error_iff (hroom : 271 ≤ capacity) :
    (∃ filled, question.build id buffer = (.error reason, filled)) ↔
      ∃ moved, question.putName.run (nameWriter id buffer) = .error reason moved := by
  cases hname : question.putName.run (nameWriter id buffer) with
  | error found moved =>
    rw [build_of_putName_error (by omega) hname]
    constructor
    · rintro ⟨_, h⟩
      cases h
      exact ⟨moved, rfl⟩
    · rintro ⟨_, h⟩
      cases h
      exact ⟨_, rfl⟩
  | ok count moved =>
    obtain ⟨hencodable, _⟩ := putName_ok_iff.mp hname
    have hlong := (asks_bytes hencodable id).length_le
    have hbuilt : question.build id buffer = (.ok _, _) :=
      build_ok_iff.mpr ⟨hencodable, Nat.le_trans hlong hroom, rfl, rfl⟩
    rw [hbuilt]
    exact ⟨nofun, nofun⟩

theorem build_ok_iff_of_le (hroom : 271 ≤ capacity) :
    (∃ size filled, question.build id buffer = (.ok size, filled)) ↔ question.Encodable := by
  constructor
  · rintro ⟨size, filled, h⟩
    exact (build_ok_iff.mp h).1
  · intro h
    have hlong := (asks_bytes h id).length_le
    exact ⟨_, _, build_ok_iff.mpr ⟨h, Nat.le_trans hlong hroom, rfl, rfl⟩⟩

theorem encodable_address_iff (hostname : Bytes) (suffix : Option Bytes) :
    let text := Name.dropDot hostname ++ Name.completion hostname suffix
    (Question.address hostname suffix).Encodable ↔
      (∀ piece ∈ Name.labels text, 1 ≤ piece.length ∧ piece.length ≤ 63) ∧ text.length ≤ 253 := by
  intro text
  have hnames : (Question.address hostname suffix).names = Name.labels text := by
    rw [names, Name.questionLabels_eq, Name.qualified_eq_append]
  have hlength := Name.length_wire_labels text
  rw [Encodable, hnames, hlength]
  simp only [Name.ValidLabels, ← List.length_pos_iff, Nat.succ_le_iff]
  exact and_congr_right fun _ => by omega

/-- Where there is room for any name, a host name that cannot be written has a fault of its own. -/
theorem putHostname_error_iff {writer : Writer capacity} (hostname : Bytes) (suffix : Option Bytes)
    (hroom : writer.position + 255 ≤ capacity) :
    (∃ moved, (Name.putHostname hostname suffix).run writer = .error reason moved) ↔
      Name.Fault hostname suffix reason := by
  by_cases hsome : hostname = []
  · subst hsome
    have hempty : (Name.putHostname [] suffix).run writer = .error .emptyName writer := rfl
    rw [hempty, Name.Fault]
    constructor
    · rintro ⟨_, h⟩
      cases h
      exact .inl ⟨rfl, rfl⟩
    · rintro (⟨_, rfl⟩ | ⟨hsome, _⟩)
      · exact ⟨writer, rfl⟩
      · contradiction
  · rw [Name.putHostname_eq _ _ hsome, Name.qualified_eq_append,
      Name.putLabels_error_iff (Nat.le_add_left 1 254) hroom, Name.Fault]
    constructor
    · exact fun h => .inr ⟨hsome, h⟩
    · rintro (⟨hnil, _⟩ | ⟨_, h⟩)
      · contradiction
      · exact h

theorem ne_bufferFull_of_fault {hostname : Bytes} {suffix : Option Bytes}
    (h : Name.Fault hostname suffix reason) : reason ≠ .bufferFull := by
  rcases h with ⟨_, rfl⟩ | ⟨_, _, _, _, _, _, _, hoffends⟩
  · exact nofun
  · exact hoffends.ne_bufferFull

/-- What is built for a question reads back as the question, and what was in the buffer behind it
stays. Every buffer of 271 bytes or more has room: in it a build fails only for what is wrong with a
host name, and the name of an address can always be asked for. -/
theorem queries_read_back (capacity : Nat) (buffer : Buffer capacity) (id : UInt16) :
    (∀ (hostname : Bytes) (suffix : Option Bytes) (size : Nat) (filled : Buffer capacity),
      (Question.address hostname suffix).build id buffer = (.ok size, filled) →
        let query := filled.bytes.take size
        query.length = size ∧
          Asks query id 1 (Name.dropDot hostname ++ Name.completion hostname suffix) ∧
            filled.bytes.drop size = buffer.bytes.drop size) ∧
    (∀ (target : IPv4) (size : Nat) (filled : Buffer capacity),
      (Question.name target).build id buffer = (.ok size, filled) →
        let query := filled.bytes.take size
        query.length = size ∧ Asks query id 12 (Name.reverseText target) ∧
          filled.bytes.drop size = buffer.bytes.drop size) ∧
    (271 ≤ capacity →
      (∀ (hostname : Bytes) (suffix : Option Bytes),
        let text := Name.dropDot hostname ++ Name.completion hostname suffix
        ((∃ size filled, (Question.address hostname suffix).build id buffer = (.ok size, filled)) ↔
          (∀ piece ∈ Name.labels text, 1 ≤ piece.length ∧ piece.length ≤ 63) ∧
            text.length ≤ 253) ∧
        (∀ reason, (∃ filled, (Question.address hostname suffix).build id buffer =
          (.error reason, filled)) ↔ Name.Fault hostname suffix reason) ∧
        ∀ filled, (Question.address hostname suffix).build id buffer ≠
          (.error .bufferFull, filled)) ∧
      ∀ target, ∃ size filled, (Question.name target).build id buffer = (.ok size, filled)) := by
  refine ⟨fun _ _ _ _ h => asks_of_build h, fun _ _ _ h => asks_of_build h, ?_⟩
  intro hroom
  have hplace : (nameWriter id buffer).position + 255 ≤ capacity := by
    rw [position_nameWriter]
    omega
  have hfault (hostname : Bytes) (suffix : Option Bytes) (reason : WireError) :
      (∃ filled, (Question.address hostname suffix).build id buffer = (.error reason, filled)) ↔
        Name.Fault hostname suffix reason :=
    (build_error_iff hroom).trans (putHostname_error_iff hostname suffix hplace)
  constructor
  · intro hostname suffix text
    refine ⟨?_, hfault hostname suffix, ?_⟩
    · rw [build_ok_iff_of_le hroom]
      exact encodable_address_iff hostname suffix
    · intro filled h
      exact ne_bufferFull_of_fault ((hfault hostname suffix _).mp ⟨filled, h⟩) rfl
  · intro target
    exact (build_ok_iff_of_le hroom).mpr (Name.encodable_name target)

/-- A host name with a suffix, an address, and a host name with a byte too many. -/
theorem queries_in_smallest_buffer :
    let buffer := Buffer.zero 271
    let suffixed : Question := .address [119, 119, 119] (some [108, 97, 110, 46])
    let reverse : Question := .name ⟨192, 0, 2, 7⟩
    271 ≤ 271 ∧
    (∃ filled, suffixed.build 7 buffer = (.ok 25, filled) ∧
      Asks (filled.bytes.take 25) 7 1 [119, 119, 119, 46, 108, 97, 110] ∧
        filled.bytes.drop 25 = List.replicate 246 0) ∧
    (∃ filled, reverse.build 7 buffer = (.ok 40, filled) ∧
      Asks (filled.bytes.take 40) 7 12 (Utf8.encode "7.2.0.192.in-addr.arpa".toList)) ∧
    ∃ filled, (Question.address (List.replicate 64 97) none).build 7 buffer =
      (.error .labelTooLong, filled) := by
  intro buffer suffixed reverse
  obtain ⟨haddress, hname, hall⟩ := queries_read_back 271 buffer 7
  obtain ⟨hhostnames, _⟩ := hall (Nat.le_refl 271)
  have hencodable : suffixed.Encodable := by decide +kernel
  have hbuild : suffixed.build 7 buffer = (.ok 25, buffer.overwrite 0 (suffixed.bytes 7)) :=
    build_ok_iff.mpr ⟨hencodable, by decide +kernel, by decide +kernel, rfl⟩
  have hbuild' : reverse.build 7 buffer = (.ok 40, buffer.overwrite 0 (reverse.bytes 7)) :=
    build_ok_iff.mpr
      ⟨Name.encodable_name _, by decide +kernel, by decide +kernel, rfl⟩
  obtain ⟨_, hasks, hrest⟩ := haddress _ _ 25 _ hbuild
  obtain ⟨_, hasks', _⟩ := hname _ 40 _ hbuild'
  have htext : Name.reverseText ⟨192, 0, 2, 7⟩ =
      Utf8.encode "7.2.0.192.in-addr.arpa".toList := by decide +kernel
  rw [htext] at hasks'
  refine ⟨Nat.le_refl 271, ⟨_, hbuild, hasks, hrest⟩, ⟨_, hbuild', hasks'⟩, ?_⟩
  apply ((hhostnames (List.replicate 64 97) none).2.1 .labelTooLong).mpr
  exact .inr ⟨by decide, [], List.replicate 64 97, [], by decide +kernel, nofun, by decide,
    .tooLong (by decide)⟩

end Question
end StubDns
