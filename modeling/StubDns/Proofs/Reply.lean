import StubDns.Proofs.Answer
import StubDns.Proofs.Name.RoundTrip

/-! Datagrams put together as replies: what is taken from them is what was put in. -/
namespace StubDns.Response

variable {α : Type} {question : Question} {sent id : UInt16} {header : Header}
  {records before after : List WireRecord} {wire : WireRecord} {trailing : Bytes}

/-- The datagram that answers `query` with `records`. -/
def reply (header : Header) (query : Bytes) (records : List WireRecord) (trailing : Bytes) : Bytes :=
  header.bytes ++ query.drop Header.size ++ records.flatMap WireRecord.bytes ++ trailing

theorem reply_bytes (header : Header) (question : Question) (sent : UInt16)
    (records : List WireRecord) (trailing : Bytes) :
    reply header (question.bytes sent) records trailing =
      header.bytes ++ question.asked ++ records.flatMap WireRecord.bytes ++ trailing := by
  rw [reply, Header.size, Question.drop_bytes]

theorem length_front (header : Header) (question : Question) (sent : UInt16) :
    (header.bytes ++ question.asked).length = (question.bytes sent).length := by
  rw [Question.length_bytes, List.length_append, Header.length_bytes, Header.size]

theorem holdsAt_records : (reply header (question.bytes sent) records trailing).HoldsAt
    (question.bytes sent).length (records.flatMap WireRecord.bytes) := by
  rw [reply_bytes, ← length_front header question sent]
  exact Bytes.holdsAt_append_left _ _ _

/-- A record stands behind the records before it. -/
theorem holdsAt_record : (reply header (question.bytes sent) (before ++ wire :: after)
    trailing).HoldsAt (question.bytes sent).length
      (before.flatMap WireRecord.bytes ++ wire.bytes) := by
  have hall : (reply header (question.bytes sent) (before ++ wire :: after) trailing).HoldsAt
    (question.bytes sent).length ((before ++ wire :: after).flatMap WireRecord.bytes) :=
      holdsAt_records
  rw [List.flatMap_append, List.flatMap_cons, ← List.append_assoc] at hall
  exact (Bytes.holdsAt_append.mp hall).1

theorem holdsAt_data : (reply header (question.bytes sent) (before ++ wire :: after) trailing).HoldsAt
    (wire.dataStart ((question.bytes sent).length +
      (before.flatMap WireRecord.bytes).length)) wire.data :=
  WireRecord.holdsAt_data (Bytes.holdsAt_append.mp holdsAt_record).2

/-- Behind the records there is nothing but what trails them. -/
theorem drop_records : (reply header (question.bytes sent) records trailing).drop
    ((question.bytes sent).length + (records.flatMap WireRecord.bytes).length) = trailing := by
  rw [reply_bytes, ← length_front header question sent]
  apply List.drop_left'
  exact List.length_append

theorem answers_reply (hquestion : question.Encodable) (hreplies : header.Replies id) :
    answers (question.bytes sent) (reply header (question.bytes sent) records trailing) id =
      .ok (header, ⟨reply header (question.bytes sent) records trailing,
        (question.bytes sent).length⟩) := by
  apply (answers_bytes_iff hquestion).mpr
  rw [reply_bytes]
  refine ⟨hreplies, ?_, ?_, rfl⟩
  · rw [List.append_assoc, List.append_assoc]
    exact Bytes.holdsAt_append_left [] header.bytes _
  · exact Bytes.holdsAt_iff.mpr ⟨header.bytes, _, List.append_assoc .., rfl⟩

/-- What is found in a reply is what the walk over its records comes to. -/
theorem find_reply (hquestion : question.Encodable) (hreplies : header.Replies id)
    (pick : Record → Option α) (wantedType : RecordType) :
    find pick wantedType (question.bytes sent)
        (reply header (question.bytes sent) records trailing) id =
      match (Record.first pick header.ancount.toNat).run
        ⟨reply header (question.bytes sent) records trailing, (question.bytes sent).length⟩ with
      | .ok (some value) _ => .ok value
      | .ok none _ => .error (.noMatchingRecord wantedType)
      | .error reason _ => .error (.malformed reason) := by
  rw [find, answers_reply hquestion hreplies]
  simp only [Bind.bind, Except.bind, reading]
  cases (Record.first pick header.ancount.toNat).run
      ⟨reply header (question.bytes sent) records trailing, (question.bytes sent).length⟩ with
  | error reason moved => rfl
  | ok found moved => cases found <;> rfl

section
variable {pick : Record → Option α} {wanted : WireRecord → Prop} {wantedType : RecordType}
  {value : α}

/-- The first wanted record is found among as many as the header announces, or more. -/
theorem find_wanted (hquestion : question.Encodable) (hreplies : header.Replies id)
    (hpick : ∀ wire position, (pick (wire.readAt position)).isSome ↔ wanted wire)
    (hcount : (before ++ wire :: after).length ≤ header.ancount.toNat)
    (hbefore : ∀ other ∈ before, ¬ wanted other)
    (hvalue : pick (wire.readAt ((question.bytes sent).length +
      (before.flatMap WireRecord.bytes).length)) = some value) :
    find pick wantedType (question.bytes sent)
      (reply header (question.bytes sent) (before ++ wire :: after) trailing) id = .ok value := by
  let message := reply header (question.bytes sent) (before ++ wire :: after) trailing
  have hwanted : wanted wire := by
    rw [← hpick wire, hvalue]
    rfl
  have hlt : before.length < header.ancount.toNat := by
    rw [List.length_append, List.length_cons] at hcount
    omega
  have hfirst : Record.FirstAt wanted message (question.bytes sent).length header.ancount.toNat
      wire ((question.bytes sent).length + (before.flatMap WireRecord.bytes).length) :=
    ⟨before, hlt, hbefore, hwanted, holdsAt_record, rfl⟩
  obtain ⟨moved, hrun⟩ : ∃ moved, (Record.first pick header.ancount.toNat).run
      ⟨message, (question.bytes sent).length⟩ = .ok (some value) moved :=
    Record.first_of_firstAt hpick hfirst hvalue
  rw [find_reply hquestion hreplies, hrun]

/-- Where no record is wanted the walk comes to what trails them. -/
theorem run_first_reply (header : Header) (question : Question) (sent : UInt16) (trailing : Bytes)
    (hpick : ∀ wire position, (pick (wire.readAt position)).isSome ↔ wanted wire)
    (hnone : ∀ wire ∈ records, ¬ wanted wire) (more : Nat) :
    ∃ cursor : Cursor, cursor.rest = trailing ∧
      (Record.first pick (records.length + more)).run
        ⟨reply header (question.bytes sent) records trailing, (question.bytes sent).length⟩ =
          (Record.first pick more).run cursor := by
  refine ⟨_, ?_, Record.run_first_unwanted hpick hnone holdsAt_records⟩
  exact drop_records

theorem find_unwanted (hquestion : question.Encodable) (hreplies : header.Replies id)
    (hpick : ∀ wire position, (pick (wire.readAt position)).isSome ↔ wanted wire)
    (hcount : header.ancount.toNat = records.length) (hnone : ∀ wire ∈ records, ¬ wanted wire) :
    find pick wantedType (question.bytes sent)
        (reply header (question.bytes sent) records trailing) id =
      .error (.noMatchingRecord wantedType) := by
  obtain ⟨cursor, _, hrun⟩ := run_first_reply header question sent trailing hpick hnone 0
  rw [Nat.add_zero] at hrun
  rw [find_reply hquestion hreplies, hcount, hrun]
  rfl

/-- The header announces more records than there are. -/
theorem find_short (hquestion : question.Encodable) (hreplies : header.Replies id)
    (hpick : ∀ wire position, (pick (wire.readAt position)).isSome ↔ wanted wire)
    (hcount : records.length < header.ancount.toNat) (hnone : ∀ wire ∈ records, ¬ wanted wire) :
    find pick wantedType (question.bytes sent)
        (reply header (question.bytes sent) records []) id = .error (.malformed .truncated) := by
  obtain ⟨more, hmore⟩ : ∃ more, header.ancount.toNat = records.length + (more + 1) := by
    refine ⟨header.ancount.toNat - records.length - 1, ?_⟩
    omega
  obtain ⟨cursor, hend, hrun⟩ := run_first_reply header question sent [] hpick hnone (more + 1)
  rw [find_reply hquestion hreplies, hmore, hrun, Record.run_first_at_end hend]

end

theorem name_of_find_error {capacity : Nat} {query response : Bytes} {reason : Rejection}
    (h : find Record.nameStart? .ptr query response id = .error reason) (out : Buffer capacity) :
    Response.name query response id out = (.error reason, out) := by
  rw [Response.name, h]

theorem name_of_find_ok {capacity start : Nat} {query response : Bytes} {names : List Bytes}
    (h : find Record.nameStart? .ptr query response id = .ok start)
    (hlegible : Name.Legible response start names) (hcapacity : 256 ≤ capacity)
    (out : Buffer capacity) :
    (Response.name query response id out).1 = .ok (Name.text names).length ∧
      (Response.name query response id out).2.bytes.take (Name.text names).length =
        Name.text names := by
  obtain ⟨hresult, hwritten⟩ := Name.copy_of_legible hcapacity hlegible out
  rw [Response.name, h]
  dsimp only
  rw [hresult]
  exact ⟨rfl, hwritten⟩

variable {size capacity : Nat} {buffer filled : Buffer capacity}

/-- The address in a reply is that of its first address record, whatever the other records are and
whatever trails them. Without one there is no matching record, and where the header announces more
records than there are, the reply is cut short. -/
theorem address_of_reply (h : question.build id buffer = (.ok size, filled))
    (hreplies : header.Replies id) (records : List WireRecord)
    (hcount : records.length ≤ header.ancount.toNat) :
    let query := filled.bytes.take size
    (∀ before wire after trailing, records = before ++ wire :: after →
      (∀ other ∈ before, ¬ other.IsAddress) → wire.IsAddress →
        ∃ address, wire.data = IPv4.octets address ∧
          Response.address query (reply header query records trailing) id = .ok address) ∧
    ((∀ wire ∈ records, ¬ wire.IsAddress) →
      (header.ancount.toNat = records.length → ∀ trailing,
        Response.address query (reply header query records trailing) id =
          .error (.noMatchingRecord .a)) ∧
      (records.length < header.ancount.toNat →
        Response.address query (reply header query records []) id =
          .error (.malformed .truncated))) := by
  intro query
  obtain ⟨hquestion, _⟩ := Question.build_ok_iff.mp h
  have hquery : query = question.bytes id := Question.take_of_build h
  have hpick (wire : WireRecord) (position : Nat) :
      (wire.readAt position).address?.isSome ↔ wire.IsAddress := WireRecord.isSome_address?_readAt
  rw [hquery]
  constructor
  · rintro before wire after trailing rfl hbefore hwire
    let place := (question.bytes id).length + (before.flatMap WireRecord.bytes).length
    have hsome : (wire.readAt place).address?.isSome := (hpick wire place).mpr hwire
    obtain ⟨address, hvalue⟩ := Option.isSome_iff_exists.mp hsome
    have hdata := (WireRecord.address?_readAt_eq_some.mp hvalue).2
    exact ⟨address, hdata, find_wanted hquestion hreplies hpick hcount hbefore hvalue⟩
  · intro hnone
    constructor
    · intro hall trailing
      exact find_unwanted hquestion hreplies hpick hall hnone
    · intro hfewer
      exact find_short hquestion hreplies hpick hfewer hnone

/-- An alias and an address record of three bytes are passed over, and what trails is not read. -/
theorem address_behind_others :
    let query : Bytes := [0, 7, 1, 0, 0, 1, 0, 0, 0, 0, 0, 0, 1, 97, 0, 0, 1, 0, 1]
    let header : Header := { id := 7, flags := 0x8180, qdcount := 1, ancount := 3, arcount := 9 }
    let others : List WireRecord := [
      ⟨[192, 12], .pointer (by decide), ⟨5, 1, 60, 3⟩, [1, 98, 0], rfl⟩,
      ⟨[1, 98, 0], @WireName.label 1 [98] [0] (by decide) (by decide) rfl .root,
        ⟨1, 1, 60, 3⟩, [10, 0, 0], rfl⟩]
    let wanted : WireRecord := ⟨[0], .root, ⟨1, 1, 60, 4⟩, [192, 0, 2, 7], rfl⟩
    (∃ filled, (Question.address [97] none).build 7 (Buffer.zero 512) = (.ok 19, filled) ∧
      filled.bytes.take 19 = query) ∧
    Response.address query (reply header query (others ++ [wanted]) [255]) 7 =
      .ok ⟨192, 0, 2, 7⟩ ∧
    Response.address query (reply { header with ancount := 2 } query others [255]) 7 =
      .error (.noMatchingRecord .a) ∧
    Response.address query (reply header query others []) 7 = .error (.malformed .truncated) := by
  intro query header others wanted
  have hencodable : (Question.address [97] none).Encodable := by decide +kernel
  have hbuild : (Question.address [97] none).build 7 (Buffer.zero 512) =
      (.ok 19, (Buffer.zero 512).overwrite 0 query) :=
    Question.build_ok_iff.mpr ⟨hencodable, by decide +kernel, rfl, rfl⟩
  have hquery : ((Buffer.zero 512).overwrite 0 query).bytes.take 19 = query := rfl
  have hothers : ∀ other ∈ others, ¬ other.IsAddress := by decide
  have hreplies : header.Replies 7 := ⟨rfl, by decide, rfl, by decide⟩
  have htwo : ({ header with ancount := 2 } : Header).Replies 7 := ⟨rfl, by decide, rfl, by decide⟩
  have hwanted := address_of_reply hbuild hreplies (others ++ [wanted]) (by decide)
  have hall := address_of_reply hbuild htwo others (by decide)
  have hmore := address_of_reply hbuild hreplies others (by decide)
  rw [hquery] at hwanted hall hmore
  obtain ⟨address, hdata, hok⟩ := hwanted.1 others wanted [] [255] rfl hothers ⟨rfl, rfl, rfl⟩
  obtain rfl : address = ⟨192, 0, 2, 7⟩ := by
    cases address
    cases hdata
    rfl
  exact ⟨⟨_, hbuild, hquery⟩, hok, (hall.2 hothers).1 rfl [255], (hmore.2 hothers).2 (by decide)⟩

/-- The name in a reply to a reverse query is the one that its first pointer record spells, in full
or by way of a pointer to any place in the reply. -/
theorem name_of_reply {target : IPv4}
    (h : (Question.name target).build id buffer = (.ok size, filled)) (hreplies : header.Replies id)
    (records : List WireRecord) (hcount : header.ancount.toNat = records.length)
    (trailing : Bytes) (room : Nat) (out : Buffer room) (hroom : 256 ≤ room) :
    let query := filled.bytes.take size
    let datagram := reply header query records trailing
    (∀ before wire after names, records = before ++ wire :: after →
      (∀ other ∈ before, ¬ other.IsPointer) → wire.IsPointer → names ≠ [] →
      Name.ValidLabels names → (Name.text names).length ≤ 253 →
      Name.Spells datagram wire.data names →
        (Response.name query datagram id out).1 = .ok (Name.text names).length ∧
          (Response.name query datagram id out).2.bytes.take (Name.text names).length =
            Name.text names) ∧
    ((∀ wire ∈ records, ¬ wire.IsPointer) →
      Response.name query datagram id out = (.error (.noMatchingRecord .ptr), out)) := by
  intro query datagram
  obtain ⟨hquestion, _⟩ := Question.build_ok_iff.mp h
  have hquery : query = (Question.name target).bytes id := Question.take_of_build h
  have hpick (wire : WireRecord) (position : Nat) :
      (wire.readAt position).nameStart?.isSome ↔ wire.IsPointer :=
    WireRecord.isSome_nameStart?_readAt
  subst datagram
  rw [hquery]
  constructor
  · rintro before wire after names rfl hbefore hwire hsome hnames htext hspells
    let place := ((Question.name target).bytes id).length +
      (before.flatMap WireRecord.bytes).length
    have hstart : (wire.readAt place).nameStart? = some (wire.dataStart place) :=
      WireRecord.nameStart?_readAt_eq_some.mpr ⟨hwire, rfl⟩
    have hfind : find Record.nameStart? .ptr ((Question.name target).bytes id)
        (reply header ((Question.name target).bytes id) (before ++ wire :: after) trailing) id =
          .ok (wire.dataStart place) :=
      find_wanted hquestion hreplies hpick (Nat.le_of_eq hcount.symm) hbefore hstart
    have hlegible := Name.legible_of_spells hspells hnames hsome htext holdsAt_data
    exact name_of_find_ok hfind hlegible hroom out
  · intro hnone
    exact name_of_find_error (find_unwanted hquestion hreplies hpick hcount hnone) out

/-- A label of its own, and the rest in the question. -/
theorem name_by_way_of_question :
    let question : Question := .name ⟨192, 0, 2, 7⟩
    let header : Header := { id := 7, flags := 0x8180, qdcount := 1, ancount := 2 }
    let other : WireRecord := ⟨[192, 12], .pointer (by decide), ⟨5, 1, 60, 3⟩, [1, 98, 0], rfl⟩
    let pointer : WireRecord :=
      ⟨[192, 12], .pointer (by decide), ⟨12, 1, 60, 4⟩, [1, 98, 192, 30], rfl⟩
    let datagram := reply header (question.bytes 7) [other, pointer] [255]
    (∃ filled, question.build 7 (Buffer.zero 512) = (.ok 40, filled) ∧
      filled.bytes.take 40 = question.bytes 7) ∧
    (Response.name (question.bytes 7) datagram 7 (Buffer.zero 256)).1 = .ok 6 ∧
    (Response.name (question.bytes 7) datagram 7 (Buffer.zero 256)).2.bytes.take 6 =
      [98, 46, 97, 114, 112, 97] := by
  intro question header other pointer datagram
  have hencodable : question.Encodable := by decide +kernel
  have hbuild : question.build 7 (Buffer.zero 512) =
      (.ok 40, (Buffer.zero 512).overwrite 0 (question.bytes 7)) :=
    Question.build_ok_iff.mpr ⟨hencodable, by decide +kernel, rfl, rfl⟩
  have hquery := Question.take_of_build hbuild
  have hreplies : header.Replies 7 := ⟨rfl, by decide, rfl, by decide⟩
  have hname := name_of_reply hbuild hreplies [other, pointer] rfl [255] 256 (Buffer.zero 256)
    (Nat.le_refl 256)
  rw [hquery] at hname
  have hspells : Name.Spells datagram pointer.data [[98], [97, 114, 112, 97]] :=
    @Name.Spells.compressed datagram [[98]] [[97, 114, 112, 97]] 30 (by decide) (by decide) (by rfl)
  have hother : ∀ record ∈ [other], ¬ record.IsPointer := by decide
  refine ⟨⟨_, hbuild, hquery⟩, ?_⟩
  exact hname.1 [other] pointer [] _ rfl hother ⟨rfl, rfl⟩ (by decide)
    (by decide) (by decide) hspells

end StubDns.Response
