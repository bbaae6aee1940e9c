import Mathlib.Control.Monad.Basic
import StubDns.Proofs.Exchange.Retry
import StubDns.Proofs.Exchange.Writes
import StubDns.Proofs.Name.Reverse
import StubDns.Proofs.Name.Walk
import StubDns.Proofs.Reply
import StubDns.Script

/-! What a lookup makes of the buffer that its caller lends it for the name. All attempts write into
the same one, and a name is written before it is known to be good. -/
namespace StubDns

namespace Response
variable {question : Question} {sent id : UInt16} {response : Bytes} {wire : WireRecord}
  {place capacity size : Nat} {out : Buffer capacity}

/-- `response` answers `query` as far as to its first pointer record, which is `wire` at `place`. -/
def ReachesPointer (query response : Bytes) (id : UInt16) (wire : WireRecord) (place : Nat) :
    Prop :=
  Echoes query response id ∧ FirstAnswer WireRecord.IsPointer query response id wire place

theorem find_of_reachesPointer (hquestion : question.Encodable)
    (h : ReachesPointer (question.bytes sent) response id wire place) :
    find Record.nameStart? .ptr (question.bytes sent) response id =
      .ok (wire.dataStart place) := by
  obtain ⟨hechoes, hfirst⟩ := h
  have hpointer : wire.IsPointer := by
    obtain ⟨_, _, _, _, _, _, hpointer, _⟩ := hfirst
    exact hpointer
  exact (find_ok_iff hquestion fun _ _ => WireRecord.isSome_nameStart?_readAt).mpr
    ⟨hechoes, wire, place, hfirst, WireRecord.nameStart?_readAt_eq_some.mpr ⟨hpointer, rfl⟩⟩

theorem output_of_reachesPointer (hquestion : question.Encodable)
    (h : ReachesPointer (question.bytes sent) response id wire place) (out : Buffer capacity) :
    (Response.name (question.bytes sent) response id out).2 =
      (Name.copy response (wire.dataStart place) out).2 := by
  rw [Response.name, find_of_reachesPointer hquestion h]

/-- Nothing is written before there is a pointer record to take the name from. -/
theorem output_of_not_reachesPointer (hquestion : question.Encodable)
    (h : ∀ wire place, ¬ ReachesPointer (question.bytes sent) response id wire place)
    (out : Buffer capacity) : (Response.name (question.bytes sent) response id out).2 = out := by
  cases hfind : find Record.nameStart? .ptr (question.bytes sent) response id with
  | error reason => rw [name_of_find_error hfind]
  | ok start =>
    obtain ⟨hechoes, wire, place, hfirst, _⟩ :=
      (find_ok_iff hquestion fun _ _ => WireRecord.isSome_nameStart?_readAt).mp hfind
    exact absurd ⟨hechoes, hfirst⟩ (h wire place)

/-- No name reaches beyond the front of the buffer, be it good or not. -/
theorem drop_output (query response : Bytes) (id : UInt16) (out : Buffer capacity) :
    (Response.name query response id out).2.bytes.drop 256 = out.bytes.drop 256 := by
  cases hfind : find Record.nameStart? .ptr query response id with
  | error reason => rw [name_of_find_error hfind]
  | ok start =>
    rw [Response.name, hfind]
    exact Name.drop_copy response start out

theorem output_of_name_ok (hquestion : question.Encodable)
    (h : (Response.name (question.bytes sent) response id out).1 = .ok size) :
    ∃ wire place labels, ReachesPointer (question.bytes sent) response id wire place ∧
      Name.Legible response (wire.dataStart place) labels ∧ size = (Name.text labels).length ∧
        (Response.name (question.bytes sent) response id out).2.bytes.take size =
          Name.text labels := by
  obtain ⟨hechoes, wire, place, hfirst, hcopy⟩ := echoes_of_name_ok hquestion (Prod.ext h rfl)
  obtain ⟨hcapacity, labels, hlegible, rfl⟩ := Name.legible_of_copy (congrArg Prod.fst hcopy)
  have htext := (Name.copy_of_legible hcapacity hlegible out).2
  rw [hcopy] at htext
  exact ⟨wire, place, labels, ⟨hechoes, hfirst⟩, hlegible, rfl, htext⟩

end Response

/-- What a read has received. -/
def Event.received? : Event → Option Received
  | ⟨.read _ _, reply⟩ => some reply
  | _ => none

namespace Exchange.Course
variable {σ ω α : Type}

section
variable {course : Course σ α} {accept : Bytes → ω → Except Rejection α × ω}

theorem received_rounds (course : Course σ α) (k : Nat) :
    (course.rounds k).filterMap Event.received? =
      (List.range k).map fun j => (course.attempt j).received := by
  induction k with
  | zero => rfl
  | succ k ih =>
    rw [rounds_succ, List.filterMap_append, ih, List.range_succ, List.map_append]
    rfl

/-- A loop leaves behind what its reads have made of what the caller lent. -/
theorem lent_of_loop (haccept : course.Judges accept) (limit : Nat) (lent : ω) :
    ∃ m ≤ limit, (course.loop accept limit 0 lent).events.filterMap Event.received? =
        (List.range m).map (fun j => (course.attempt j).received) ∧
      (course.loop accept limit 0 lent).value.lent = course.lentAt accept lent m := by
  rcases all_or_first_stop course limit with hall | ⟨k, hk, hstop, hbefore⟩
  · obtain ⟨hvalue, hevents⟩ := loop_spent haccept hall lent
    rw [hvalue, hevents, received_rounds]
    exact ⟨limit, Nat.le_refl limit, rfl, rfl⟩
  · rcases ends_of_not_goesOn hstop with
      ⟨reason, hwrite⟩ | ⟨sent, reason, hwrite, htimer⟩ | ⟨hwaits, reason, hread, hreason⟩ |
      ⟨value, hdelivers⟩
    · obtain ⟨hvalue, hevents⟩ := loop_ends haccept hk hbefore lent fun _ => loop_unsent hwrite
      rw [hvalue, hevents, List.filterMap_append, received_rounds]
      exact ⟨k, Nat.le_of_lt hk, List.append_nil _, rfl⟩
    · obtain ⟨hvalue, hevents⟩ :=
        loop_ends haccept hk hbefore lent fun _ => loop_unarmed hwrite htimer
      rw [hvalue, hevents, List.filterMap_append, received_rounds]
      exact ⟨k, Nat.le_of_lt hk, List.append_nil _, rfl⟩
    · obtain ⟨hvalue, hevents⟩ :=
        loop_ends haccept hk hbefore lent fun _ => loop_unread hwaits hread hreason
      rw [hvalue, hevents, ← rounds_succ, received_rounds]
      refine ⟨k + 1, hk, rfl, ?_⟩
      rw [lentAt, lend, hread]
    · obtain ⟨hvalue, hevents⟩ :=
        loop_ends haccept hk hbefore lent fun _ => loop_delivers haccept hdelivers
      rw [hvalue, hevents, ← rounds_succ, received_rounds]
      exact ⟨k + 1, hk, rfl, rfl⟩

end

variable {capacity : Nat}

/-- The caller's buffer as it is before attempt `k` of a lookup that lends `out`. -/
def outputAt (course : Course σ Nat) (query : Bytes) (id : UInt16) (out : Buffer capacity) :
    Nat → Buffer capacity :=
  course.lentAt (fun datagram out => Response.name query datagram id out) out

/-- What becomes of the caller's buffer in a lookup that makes up to `limit` attempts. -/
structure FramesOutput (course : Course σ Nat) (query : Bytes) (id : UInt16)
    (out : Buffer capacity) (limit : Nat) (answer : Option Nat) (written : Buffer capacity)
    (events : List Event) : Prop where
  /-- An attempt is made with the buffer that the attempts before it leave. -/
  passed : ∀ k left, limit = k + left → (∀ j < k, course.GoesOn j) →
    let rest := course.loop (fun datagram out => Response.name query datagram id out) left k
      (course.outputAt query id out k)
    answer = rest.value.answer ∧ written = rest.value.lent ∧
      events = course.rounds k ++ rest.events
  /-- The caller gets back what all reads that were made have left. -/
  given : ∃ m ≤ limit, events.filterMap Event.received? =
      (List.range m).map (fun j => (course.attempt j).received) ∧
    written = course.outputAt query id out m
  /-- Without a datagram that comes to a pointer record, an attempt changes nothing. -/
  untouched : ∀ k, (∀ size, (course.attempt k).received.result = .ok size →
      ∀ wire place, ¬ Response.ReachesPointer query (course.datagramAt k size) id wire place) →
    course.outputAt query id out (k + 1) = course.outputAt query id out k
  /-- With one, it changes what copying the name changes. -/
  copied : ∀ k size wire place, (course.attempt k).received.result = .ok size →
    Response.ReachesPointer query (course.datagramAt k size) id wire place →
      course.outputAt query id out (k + 1) =
        (Name.copy (course.datagramAt k size) (wire.dataStart place)
          (course.outputAt query id out k)).2
  /-- An answer is the length of the name that the last datagram spells, and the name is there. -/
  answered : ∀ n, answer = some n → ∃ k < limit, (∀ j < k, course.GoesOn j) ∧
    events = course.rounds (k + 1) ∧ ∃ size, (course.attempt k).received.result = .ok size ∧
      ∃ wire place labels,
        Response.ReachesPointer query (course.datagramAt k size) id wire place ∧
        Name.Legible (course.datagramAt k size) (wire.dataStart place) labels ∧
        n = (Name.text labels).length ∧ written.bytes.take n = Name.text labels
  /-- Nothing is ever written beyond the longest name. -/
  beyond : (∀ k, (course.outputAt query id out k).bytes.drop 256 = out.bytes.drop 256) ∧
    written.bytes.drop 256 = out.bytes.drop 256

section
variable {course : Course σ Nat} {question : Question} {sent id : UInt16} {out : Buffer capacity}
  {query : Bytes} {k size : Nat}

theorem outputAt_of_received (h : (course.attempt k).received.result = .ok size) :
    course.outputAt query id out (k + 1) =
      (Response.name query (course.datagramAt k size) id (course.outputAt query id out k)).2 := by
  rw [outputAt, lentAt, lend, h]

theorem outputAt_of_unreceived {reason : ResolveError}
    (h : (course.attempt k).received.result = .error reason) :
    course.outputAt query id out (k + 1) = course.outputAt query id out k := by
  rw [outputAt, lentAt, lend, h]

theorem drop_outputAt (course : Course σ Nat) (query : Bytes) (id : UInt16)
    (out : Buffer capacity) (k : Nat) :
    (course.outputAt query id out k).bytes.drop 256 = out.bytes.drop 256 := by
  induction k with
  | zero => rfl
  | succ k ih =>
    cases hread : (course.attempt k).received.result with
    | error reason => rw [outputAt_of_unreceived hread, ih]
    | ok size => rw [outputAt_of_received hread, Response.drop_output, ih]

theorem outputAt_of_not_reachesPointer (hquestion : question.Encodable)
    (h : ∀ size, (course.attempt k).received.result = .ok size → ∀ wire place,
      ¬ Response.ReachesPointer (question.bytes sent) (course.datagramAt k size) id wire place) :
    course.outputAt (question.bytes sent) id out (k + 1) =
      course.outputAt (question.bytes sent) id out k := by
  cases hread : (course.attempt k).received.result with
  | error reason => exact outputAt_of_unreceived hread
  | ok size =>
    rw [outputAt_of_received hread]
    exact Response.output_of_not_reachesPointer hquestion (h size hread) _

/-- The loop of a lookup treats the caller's buffer so on every network. -/
theorem framesOutput_loop (hquestion : question.Encodable)
    (hverdict : ∀ datagram, course.verdict datagram =
      (Response.name (question.bytes sent) datagram id out).1) (limit : Nat) :
    let loop := course.loop
      (fun datagram out => Response.name (question.bytes sent) datagram id out) limit 0 out
    course.FramesOutput (question.bytes sent) id out limit loop.value.answer loop.value.lent
      loop.events := by
  intro loop
  have hjudges : course.Judges fun datagram (out : Buffer capacity) =>
      Response.name (question.bytes sent) datagram id out := by
    intro datagram other
    rw [hverdict]
    exact Response.result_name _ _ _ other out
  constructor
  case passed =>
    rintro k left rfl hbefore rest
    obtain ⟨hvalue, hevents⟩ := loop_after hjudges hbefore left out
    exact ⟨congrArg Concluded.answer hvalue, congrArg Concluded.lent hvalue, hevents⟩
  case given => exact lent_of_loop hjudges limit out
  case untouched =>
    intro k h
    exact outputAt_of_not_reachesPointer hquestion h
  case copied =>
    intro k size wire place hread hreaches
    rw [outputAt_of_received hread]
    exact Response.output_of_reachesPointer hquestion hreaches _
  case answered =>
    intro n hanswer
    obtain ⟨k, hk, hdelivers, hbefore⟩ := delivers_of_answer hjudges hanswer
    obtain ⟨hvalue, hevents⟩ :=
      loop_ends hjudges hk hbefore out fun _ => loop_delivers hjudges hdelivers
    obtain ⟨_, size, hread, hgood⟩ := hdelivers
    rw [← hjudges _ (course.outputAt (question.bytes sent) id out k)] at hgood
    obtain ⟨wire, place, labels, hreaches, hlegible, hsize, htext⟩ :=
      Response.output_of_name_ok hquestion hgood
    rw [← rounds_succ] at hevents
    refine ⟨k, hk, hbefore, hevents, size, hread, wire, place, labels, hreaches, hlegible, hsize,
      ?_⟩
    rw [show loop.value = _ from hvalue, ← htext, ← outputAt_of_received hread]
    rfl
  case beyond =>
    obtain ⟨m, _, _, hwritten⟩ := lent_of_loop hjudges limit out
    refine ⟨drop_outputAt course _ id out, ?_⟩
    rw [show loop.value.lent = _ from hwritten]
    exact drop_outputAt course _ id out m

end

end Exchange.Course

/-- In a lookup of a name, a datagram that is rejected before it comes to a pointer record changes
nothing about the caller's buffer. When the lookup has an answer, the front of the buffer is the
name of the datagram that was accepted, whatever names were begun there before, and no byte behind
the first 256 is ever changed. -/
theorem Exchange.lookupName_frames_output {σ : Type} (network : Network σ) (s : σ)
    (exchange : Exchange) (target : IPv4) {capacity : Nat} (out : Buffer capacity) :
    let id := exchange.lastId + 1
    let query := (Question.name target).bytes id
    let course := exchange.course network s query fun datagram =>
      (Response.name query datagram id out).1
    let lookup := (exchange.lookupName target out).run network s
    course.FramesOutput query id out exchange.policy.maxAttempts.toNat lookup.value.1
      lookup.value.2.1 lookup.events := by
  intro id query course lookup
  have hencodable := Name.encodable_name target
  have hroom := Question.length_bytes_le id hencodable
  have hbuild : (Question.name target).build id exchange.query =
      (.ok query.length, exchange.query.overwrite 0 query) :=
    Question.build_ok_iff.mpr ⟨hencodable, hroom, rfl, rfl⟩
  have hlookup : lookup = _ := run_transact_built hbuild
  rw [Question.take_of_build hbuild] at hlookup
  rw [hlookup]
  exact Course.framesOutput_loop hencodable (fun _ => rfl) exchange.policy.maxAttempts.toNat

/-- A datagram with another id, one whose name breaks off behind three letters, and a good one. The
first changes nothing, of the second there is left what the third does not write over. -/
theorem Exchange.output_of_three_datagrams :
    let exchange : Exchange :=
      { socket := 0, server := .v4 ⟨192, 0, 2, 53⟩ 53, suffix := none, policy := {}, lastId := 6 }
    let pointer (size : UInt8) (data : Bytes) : Bytes :=
      [192, 12, 0, 12, 0, 1, 0, 0, 0, 60, 0, size] ++ data
    let network : ScriptedNetwork := { server := exchange.server, script := [
      .reply { idXor := 1, tail := pointer 3 [1, 120, 0] } none,
      .reply { tail := pointer 6 [3, 97, 98, 99, 255, 255] } none,
      .reply { tail := pointer 3 [1, 98, 0] } none] }
    let id := exchange.lastId + 1
    let query := (Question.name ⟨192, 0, 2, 7⟩).bytes id
    let out := (Buffer.zero 300).overwrite 255 [1, 2, 3]
    let course := exchange.course ScriptedNetwork.network network query fun datagram =>
      (Response.name query datagram id out).1
    let lookup := (exchange.lookupName ⟨192, 0, 2, 7⟩ out).run ScriptedNetwork.network network
    course.outputAt query id out 1 = out ∧
    (course.outputAt query id out 2).bytes.take 5 = [97, 98, 99, 46, 0] ∧
    lookup.value.1 = some 1 ∧
    lookup.value.2.1.bytes.take 5 = [98, 98, 99, 46, 0] ∧
    lookup.value.2.1.bytes.drop 256 = out.bytes.drop 256 := by
  intro exchange pointer network id query out course lookup
  have hframes := lookupName_frames_output ScriptedNetwork.network network exchange
    ⟨192, 0, 2, 7⟩ out
  have hrejected : Response.find Record.nameStart? .ptr query (course.datagramAt 0 55) id =
      .error (.idMismatch 7 6) := by
    decide +kernel
  refine ⟨?_, by decide +kernel, by decide +kernel, by decide +kernel, ?_⟩
  · apply hframes.untouched 0
    intro size hsize wire place hreaches
    obtain rfl : 55 = size := Except.ok.inj hsize
    have hfind := Response.find_of_reachesPointer (Name.encodable_name ⟨192, 0, 2, 7⟩) hreaches
    rw [hrejected] at hfind
    cases hfind
  · -- left as it is, the two runs would be compared by running them
    unfold lookup
    exact hframes.beyond.2

end StubDns
