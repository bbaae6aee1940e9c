import StubDns.Proofs.Query
import StubDns.Question

/-! Which datagrams pass for an answer to a query, question and all. -/
namespace StubDns

theorem except_bind_ok_iff {ε α β : Type} {first : Except ε α} {next : α → Except ε β} {b : β} :
    first >>= next = .ok b ↔ ∃ a, first = .ok a ∧ next a = .ok b := by
  cases first with
  | error reason => exact ⟨nofun, fun ⟨_, h, _⟩ => nomatch h⟩
  | ok a =>
    constructor
    · exact fun h => ⟨a, rfl, h⟩
    · rintro ⟨_, h, hnext⟩
      rw [← Except.ok.inj h] at hnext
      exact hnext

theorem except_bind_error_iff {ε α β : Type} {first : Except ε α} {next : α → Except ε β}
    {reason : ε} : first >>= next = .error reason ↔
      first = .error reason ∨ ∃ a, first = .ok a ∧ next a = .error reason := by
  cases first with
  | error found =>
    constructor
    · intro h
      exact .inl (congrArg Except.error (Except.error.inj h))
    · rintro (h | ⟨_, h, _⟩)
      · exact congrArg Except.error (Except.error.inj h)
      · cases h
  | ok a =>
    constructor
    · intro h
      exact .inr ⟨a, rfl, h⟩
    · rintro (h | ⟨_, h, hnext⟩)
      · cases h
      · cases h
        exact hnext

theorem throw_if_ok_iff {ε α β : Type} {c : Prop} [Decidable c] {reason : ε}
    {next : α → Except ε β} {rest : Except ε β} {b : β} :
    (if c then (throw reason >>= next) else rest) = .ok b ↔ ¬ c ∧ rest = .ok b := by
  by_cases h : c
  · rw [if_pos h]
    constructor
    · intro h'
      cases h'
    · intro h'
      exact absurd h h'.1
  · rw [if_neg h]
    constructor
    · intro h'
      exact ⟨h, h'⟩
    · intro h'
      exact h'.2

theorem throw_if_error_iff {ε α β : Type} {c : Prop} [Decidable c] {reason other : ε}
    {next : α → Except ε β} {rest : Except ε β} :
    (if c then (throw reason >>= next) else rest) = .error other ↔
      c ∧ reason = other ∨ ¬ c ∧ rest = .error other := by
  by_cases h : c
  · rw [if_pos h]
    constructor
    · intro h'
      exact .inl ⟨h, Except.error.inj h'⟩
    · rintro (⟨_, rfl⟩ | ⟨hnot, _⟩)
      · rfl
      · contradiction
  · rw [if_neg h]
    constructor
    · intro h'
      exact .inr ⟨h, h'⟩
    · rintro (⟨hc, _⟩ | ⟨_, h'⟩)
      · contradiction
      · exact h'

/-- The header of a datagram that may carry answers to the query with this id. -/
structure Header.Replies (header : Header) (id : UInt16) : Prop where
  id_eq : header.id = id
  isResponse : header.isResponse = true
  qdcount_eq : header.qdcount = 1
  ancount_pos : 1 ≤ header.ancount.toNat

/-- A name in a message with the type and the class behind it. -/
def IsQuestion (question : Bytes) : Prop :=
  ∃ name tail, WireName name ∧ tail.length = 4 ∧ question = name ++ tail

theorem IsQuestion.prefix_free {question other after tail : Bytes} (h : IsQuestion question)
    (h' : IsQuestion other) (heq : question ++ after = other ++ tail) : question = other := by
  obtain ⟨name, four, hname, hfour, rfl⟩ := h
  obtain ⟨name', four', hname', hfour', rfl⟩ := h'
  rw [List.append_assoc, List.append_assoc] at heq
  obtain rfl := hname.prefix_free hname' heq
  rw [(List.append_inj (List.append_cancel_left heq) (hfour.trans hfour'.symm)).1]

theorem IsQuestion.length_pos {question : Bytes} (h : IsQuestion question) :
    0 < question.length := by
  obtain ⟨name, tail, hname, _, rfl⟩ := h
  have := hname.length_pos
  rw [List.length_append]
  omega

theorem Question.isQuestion_asked {question : Question} (h : question.Encodable) :
    IsQuestion question.asked := ⟨_, _, Name.wireName_wire h.1, rfl, rfl⟩

namespace Response
variable {query response : Bytes} {id : UInt16} {header : Header} {cursor moved : Cursor}

theorem reading_ok_iff {α : Type} {read : Reading α} {value : α} :
    reading read cursor = .ok (value, moved) ↔ read.run cursor = .ok value moved := by
  unfold reading
  cases read.run cursor with
  | ok result after =>
    rw [Except.ok.injEq, Prod.mk.injEq, EStateM.Result.ok.injEq]
  | error reason after => exact ⟨nofun, nofun⟩

theorem skipQuestion_ok_iff {done : Unit} : skipQuestion.run cursor = .ok done moved ↔
    ∃ question, IsQuestion question ∧ cursor.Faces question ∧
      moved = cursor.advance question.length := by
  simp only [skipQuestion, run_bind_ok_iff, Reading.skipName_ok_iff]
  constructor
  · rintro ⟨_, _, ⟨name, hname, hfaces, rfl⟩, hskip⟩
    obtain ⟨hle, rfl⟩ := Reading.skip_ok_iff.mp hskip
    obtain ⟨hfour, htail⟩ := Bytes.slice?_eq_some_iff.mp (Bytes.slice?_of_le hle)
    refine ⟨name ++ _, ⟨name, _, hname, hfour, rfl⟩, Cursor.faces_append.mpr ⟨hfaces, htail⟩, ?_⟩
    rw [Cursor.advance_advance, List.length_append, hfour]
  · rintro ⟨_, ⟨name, tail, hname, hfour, rfl⟩, hfaces, rfl⟩
    obtain ⟨hfront, hback⟩ := Cursor.faces_append.mp hfaces
    refine ⟨(), _, ⟨name, hname, hfront, rfl⟩, Reading.skip_ok_iff.mpr ⟨?_, ?_⟩⟩
    · exact hfour ▸ hback.le_length
    · rw [Cursor.advance_advance, List.length_append, hfour]

theorem size_walked (response : Bytes) (count : Nat) :
    (((Cursor.start response).advance Header.size).advance count).position - Header.size =
      count := by
  simp only [Cursor.position_advance, Cursor.start]
  omega

/-- A datagram passes on its header and its own question, which the query has to hold too. -/
theorem answers_ok_iff : answers query response id = .ok (header, cursor) ↔
    header.Replies id ∧ response.HoldsAt 0 header.bytes ∧
      ∃ question, IsQuestion question ∧ response.HoldsAt 12 question ∧
        query.HoldsAt 12 question ∧ cursor = ⟨response, 12 + question.length⟩ := by
  simp only [answers, throw_if_ok_iff, except_bind_ok_iff, Decidable.not_not,
    Bool.not_eq_true', Bool.not_eq_false]
  constructor
  · rintro ⟨_, ⟨header, _⟩, hheader, hid, hresponse, hqd, han, ⟨_, moved⟩, hskip, hecho, hpure⟩
    obtain ⟨rfl, rfl⟩ := Prod.mk.inj (Except.ok.inj hpure)
    obtain ⟨hheld, rfl⟩ := Header.read_ok_iff.mp (reading_ok_iff.mp hheader)
    obtain ⟨question, hquestion, hfaces, rfl⟩ := skipQuestion_ok_iff.mp (reading_ok_iff.mp hskip)
    rw [size_walked] at hecho
    have hpos : header.ancount.toNat ≠ 0 := by
      intro h
      exact han (UInt16.toNat_inj.mp h)
    have hsent : query.HoldsAt 12 question := hecho.trans hfaces
    exact ⟨⟨hid, hresponse, hqd, Nat.pos_of_ne_zero hpos⟩, hheld, question, hquestion, hfaces,
      hsent, rfl⟩
  · rintro ⟨⟨hid, hresponse, hqd, han⟩, hheld, question, hquestion, hfaces, hsent, rfl⟩
    have hlong : ¬ response.length ≤ Header.size := by
      have := hfaces.le_length
      have := hquestion.length_pos
      rw [Header.size]
      omega
    have hheader : reading Header.read (Cursor.start response) =
        .ok (header, (Cursor.start response).advance Header.size) :=
      reading_ok_iff.mpr (Header.read_ok_iff.mpr ⟨hheld, rfl⟩)
    have hsome : header.ancount ≠ 0 := by
      intro h
      rw [h] at han
      contradiction
    have hskip : reading skipQuestion ((Cursor.start response).advance Header.size) =
        .ok ((), ((Cursor.start response).advance Header.size).advance question.length) :=
      reading_ok_iff.mpr (skipQuestion_ok_iff.mpr ⟨question, hquestion, hfaces, rfl⟩)
    have hecho : query.slice? Header.size question.length =
        response.slice? Header.size question.length := hsent.trans hfaces.symm
    refine ⟨hlong, _, hheader, hid, hresponse, hqd, hsome, _, hskip, ?_, rfl⟩
    rw [size_walked]
    exact hecho

/-- `response` has the header of an answer and repeats the whole question of `query`. -/
structure Echoes (query response : Bytes) (id : UInt16) : Prop where
  header : ∃ header : Header, response.HoldsAt 0 header.bytes ∧ header.Replies id
  length_le : query.length ≤ response.length
  question : (response.take query.length).drop 12 = query.drop 12

variable {question : Question} {sent : UInt16}

theorem holdsAt_asked (question : Question) (sent : UInt16) :
    (question.bytes sent).HoldsAt 12 question.asked := by
  have h := Bytes.holdsAt_append_left (Header.query sent).bytes question.asked []
  rwa [List.append_nil] at h

theorem echoes_iff : Echoes (question.bytes sent) response id ↔
    ∃ header : Header, header.Replies id ∧ response.HoldsAt 0 header.bytes ∧
      response.HoldsAt 12 question.asked := by
  have hlen := question.length_bytes sent
  have hpart : (response.take (question.bytes sent).length).drop 12 =
      (response.drop 12).take question.asked.length := by
    rw [List.drop_take, hlen, Nat.add_sub_cancel_left]
  constructor
  · rintro ⟨⟨header, hheld, hreplies⟩, hle, hquestion⟩
    rw [hpart, Question.drop_bytes] at hquestion
    exact ⟨header, hreplies, hheld, Bytes.holdsAt_iff_take.mpr ⟨hlen ▸ hle, hquestion⟩⟩
  · rintro ⟨header, hreplies, hheld, hasked⟩
    obtain ⟨hle, htake⟩ := Bytes.holdsAt_iff_take.mp hasked
    exact ⟨⟨header, hheld, hreplies⟩, hlen ▸ hle, by rw [hpart, Question.drop_bytes, htake]⟩

/-- The walk over the datagram's own question ends where the query ends, as no question is the
start of another one. -/
theorem answers_bytes_iff (h : question.Encodable) :
    answers (question.bytes sent) response id = .ok (header, cursor) ↔
      header.Replies id ∧ response.HoldsAt 0 header.bytes ∧ response.HoldsAt 12 question.asked ∧
        cursor = ⟨response, (question.bytes sent).length⟩ := by
  rw [answers_ok_iff, Question.length_bytes]
  constructor
  · rintro ⟨hreplies, hheld, walked, hwalked, hfaces, hecho, rfl⟩
    obtain ⟨after, hafter⟩ := hecho.drop_eq
    rw [Question.drop_bytes, ← List.append_nil question.asked] at hafter
    obtain rfl := (Question.isQuestion_asked h).prefix_free hwalked hafter
    exact ⟨hreplies, hheld, hfaces, rfl⟩
  · rintro ⟨hreplies, hheld, hasked, rfl⟩
    exact ⟨hreplies, hheld, _, Question.isQuestion_asked h, hasked, holdsAt_asked question sent, rfl⟩

/-- What is in the question's place and like it in size or in form is the question. -/
theorem eq_asked_of_holdsAt (h : question.Encodable) {opening other rest : Bytes}
    (hasked : (opening ++ other ++ rest).HoldsAt 12 question.asked) (hopening : opening.length = 12)
    (hother : other.length = question.asked.length ∨ IsQuestion other ∨
      (other <+: question.asked ∧ rest = [])) : other = question.asked := by
  obtain ⟨after, hafter⟩ := hasked.drop_eq
  rw [List.append_assoc, List.drop_left' hopening] at hafter
  rcases hother with hlen | hquestion | ⟨⟨missing, hmissing⟩, rfl⟩
  · exact (List.append_inj hafter hlen).1
  · exact hquestion.prefix_free (Question.isQuestion_asked h) hafter
  · rw [List.append_nil, ← hmissing, List.append_assoc] at hafter
    have hnil : missing ++ after = [] := List.append_right_eq_self.mp hafter.symm
    rw [← hmissing, (List.append_eq_nil_iff.mp hnil).1, List.append_nil]

/-- A datagram passes exactly when it echoes the query to its end. So none passes whose question is
another one of the same size, any other name with type and class, or cut short. -/
theorem answers_iff_echoes {capacity size : Nat} {buffer filled : Buffer capacity}
    (h : question.build sent buffer = (.ok size, filled)) (response : Bytes) (id : UInt16) :
    let query := filled.bytes.take size
    ((∃ header cursor, answers query response id = .ok (header, cursor)) ↔
      Echoes query response id) ∧
    (∀ header cursor, answers query response id = .ok (header, cursor) →
      response.HoldsAt 0 header.bytes ∧ cursor = ⟨response, query.length⟩) ∧
    (∀ opening other rest, response = opening ++ other ++ rest → opening.length = 12 →
      other ≠ query.drop 12 →
      other.length = (query.drop 12).length ∨ IsQuestion other ∨
        (other <+: query.drop 12 ∧ rest = []) →
      ∃ reason, answers query response id = .error reason) := by
  obtain ⟨hencodable, _⟩ := Question.build_ok_iff.mp h
  rw [Question.take_of_build h]
  have hiff : (∃ header cursor, answers (question.bytes sent) response id = .ok (header, cursor)) ↔
      Echoes (question.bytes sent) response id := by
    rw [echoes_iff]
    constructor
    · rintro ⟨header, cursor, hok⟩
      obtain ⟨hreplies, hheld, hasked, _⟩ := (answers_bytes_iff hencodable).mp hok
      exact ⟨header, hreplies, hheld, hasked⟩
    · rintro ⟨header, hreplies, hheld, hasked⟩
      exact ⟨header, _, (answers_bytes_iff hencodable).mpr ⟨hreplies, hheld, hasked, rfl⟩⟩
  refine ⟨hiff, ?_, ?_⟩
  · intro header cursor hok
    obtain ⟨_, hheld, _, rfl⟩ := (answers_bytes_iff hencodable).mp hok
    exact ⟨hheld, rfl⟩
  · rintro opening other rest rfl hopening hne hother
    rw [Question.drop_bytes] at hne hother
    cases hanswers : answers (question.bytes sent) (opening ++ other ++ rest) id with
    | error reason => exact ⟨reason, rfl⟩
    | ok passed =>
      obtain ⟨_, _, hasked, _⟩ := (answers_bytes_iff hencodable).mp hanswers
      exact absurd (eq_asked_of_holdsAt hencodable hasked hopening hother) hne

/-- A reply with two bytes more than the query passes, and one with a letter changed does not. -/
theorem answers_echo_and_not_variant :
    let query : Bytes := [0, 7, 1, 0, 0, 1, 0, 0, 0, 0, 0, 0, 1, 97, 0, 0, 1, 0, 1]
    let reply : Bytes :=
      [0, 7, 129, 128, 0, 1, 0, 1, 0, 0, 0, 0, 1, 97, 0, 0, 1, 0, 1, 192, 12]
    let variant : Bytes :=
      [0, 7, 129, 128, 0, 1, 0, 1, 0, 0, 0, 0, 1, 98, 0, 0, 1, 0, 1, 192, 12]
    (∃ filled, (Question.address [97] none).build 7 (Buffer.zero 512) = (.ok 19, filled) ∧
      filled.bytes.take 19 = query) ∧
    (∃ header cursor, answers query reply 7 = .ok (header, cursor)) ∧
    (∃ reason, answers query variant 7 = .error reason) := by
  intro query reply variant
  have hencodable : (Question.address [97] none).Encodable := by
    unfold Question.Encodable Name.ValidLabels
    decide +kernel
  have hbuild : (Question.address [97] none).build 7 (Buffer.zero 512) =
      (.ok 19, (Buffer.zero 512).overwrite 0 query) :=
    Question.build_ok_iff.mpr ⟨hencodable, by decide +kernel, rfl, rfl⟩
  have hquery : ((Buffer.zero 512).overwrite 0 query).bytes.take 19 = query := rfl
  have hreply := answers_iff_echoes hbuild reply 7
  have hvariant := answers_iff_echoes hbuild variant 7
  rw [hquery] at hreply hvariant
  refine ⟨⟨_, hbuild, hquery⟩, hreply.1.mpr ?_, ?_⟩
  · exact ⟨⟨⟨7, 0x8180, 1, 1, 0, 0⟩, rfl, rfl, by decide, rfl, by decide⟩, by decide, rfl⟩
  · exact hvariant.2.2 (variant.take 12) [1, 98, 0, 0, 1, 0, 1] [192, 12] rfl rfl (by decide)
      (.inl rfl)

end Response
end StubDns
