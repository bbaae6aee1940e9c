import StubDns.Proofs.Answer
import StubDns.Proofs.Duration
import StubDns.Proofs.Exchange.Attempts
import StubDns.Script

/-! The law of retransmission: the replies to the attempts, one after the other, decide all events
of a lookup and its answer. -/
namespace StubDns.Exchange

/-- The replies to the three requests of one attempt. -/
structure Attempt where
  written : Except ResolveError Nat
  armed : Except ResolveError Unit
  received : Received

/-- All that decides how the attempts of a lookup go. -/
structure Course (σ α : Type) where
  network : Network σ
  start : σ
  socket : Socket
  policy : RetryPolicy
  query : Bytes
  response : Buffer responseCapacity
  verdict : Bytes → Except Rejection α

namespace Course
variable {σ ω α : Type} (course : Course σ α)

/-- The replies to attempt `number`, made in full, and the network after them. -/
def ask (number : Nat) (s : σ) : Attempt × σ :=
  let written := course.network.respond (.write course.socket course.query) s
  let armed := course.network.respond
    (.setTimeout course.socket (course.policy.timeoutFor number)) written.2
  let received := course.network.respond (.read course.socket responseCapacity) armed.2
  (⟨written.1, armed.1, received.1⟩, received.2)

/-- The network before attempt `k`, when all attempts before it were made in full. -/
def networkAt : Nat → σ
  | 0 => course.start
  | k + 1 => (course.ask k (networkAt k)).2

def attempt (k : Nat) : Attempt := (course.ask k (course.networkAt k)).1

/-- The receive buffer before attempt `k`. -/
def bufferAt : Nat → Buffer responseCapacity
  | 0 => course.response
  | k + 1 => (bufferAt k).overwrite 0 (course.attempt k).received.data

/-- What attempt `k` has received when its read reports `size`; never more than the buffer holds. -/
def datagramAt (k size : Nat) : Bytes := datagram (course.bufferAt (k + 1)) size

/-- Attempt `k` has sent the query and set its timer. -/
def Waits (k : Nat) : Prop :=
  (∃ sent, (course.attempt k).written = .ok sent) ∧ (course.attempt k).armed = .ok ()

/-- Attempt `k` receives a datagram that is taken for `value`. -/
def Delivers (k : Nat) (value : α) : Prop :=
  course.Waits k ∧ ∃ size, (course.attempt k).received.result = .ok size ∧
    course.verdict (course.datagramAt k size) = .ok value

/-- Attempt `k` leads to another one: its wait runs out, or its datagram is rejected. -/
def GoesOn (k : Nat) : Prop :=
  course.Waits k ∧
    ((∃ server, (course.attempt k).received.result = .error (.transportTimeout server)) ∨
      ∃ size reason, (course.attempt k).received.result = .ok size ∧
        course.verdict (course.datagramAt k size) = .error reason)

/-- Attempt `k` made in full: a write, a timer and a read. -/
def round (k : Nat) : List Event :=
  [⟨.write course.socket course.query, (course.attempt k).written⟩,
    ⟨.setTimeout course.socket (course.policy.timeoutFor k), (course.attempt k).armed⟩,
    ⟨.read course.socket responseCapacity, (course.attempt k).received⟩]

/-- The first `k` attempts, made in full. -/
def rounds (k : Nat) : List Event := (List.range k).flatMap course.round

theorem rounds_succ (k : Nat) : course.rounds (k + 1) = course.rounds k ++ course.round k := by
  simp [rounds, List.range_succ]

section
variable (accept : Bytes → ω → Except Rejection α × ω) {left k : Nat} {lent : ω}

/-- The loop from attempt `k` on. -/
def loop (left k : Nat) (lent : ω) : Finished σ (Concluded ω α) :=
  (attempts course.socket course.policy course.query accept left k (course.bufferAt k) lent).run
    course.network (course.networkAt k)

/-- What attempt `k` makes of what the caller lent. -/
def lend (k : Nat) (lent : ω) : ω :=
  match (course.attempt k).received.result with
  | .error _ => lent
  | .ok size => (accept (course.datagramAt k size) lent).2

/-- What the caller lent as it is before attempt `k`. -/
def lentAt (lent : ω) : Nat → ω
  | 0 => lent
  | k + 1 => course.lend accept k (lentAt lent k)

variable {course accept}

theorem loop_unsent {reason : ResolveError} (hwrite : (course.attempt k).written = .error reason) :
    (course.loop accept (left + 1) k lent).value = ⟨none, course.bufferAt k, lent⟩ ∧
      (course.loop accept (left + 1) k lent).events =
        [⟨.write course.socket course.query, .error reason⟩] := by
  have hwritten : (course.network.respond (.write course.socket course.query)
    (course.networkAt k)).1 = .error reason := hwrite
  rw [loop, attempts, Dialogue.run_request_bind]
  simp only [hwritten]
  exact ⟨rfl, rfl⟩

theorem loop_unarmed {sent : Nat} {reason : ResolveError}
    (hwrite : (course.attempt k).written = .ok sent)
    (htimer : (course.attempt k).armed = .error reason) :
    (course.loop accept (left + 1) k lent).value = ⟨none, course.bufferAt k, lent⟩ ∧
      (course.loop accept (left + 1) k lent).events =
        [⟨.write course.socket course.query, .ok sent⟩,
          ⟨.setTimeout course.socket (course.policy.timeoutFor k), .error reason⟩] := by
  simp only [attempt, ask] at hwrite htimer
  rw [loop, attempts, Dialogue.run_request_bind]
  simp only [hwrite]
  rw [Dialogue.run_request_bind]
  simp only [htimer]
  exact ⟨rfl, rfl⟩

/-- What the loop does with the reply to the read of attempt `k`. -/
def afterRead (course : Course σ α) (accept : Bytes → ω → Except Rejection α × ω)
    (left k : Nat) (lent : ω) : Dialogue (Concluded ω α) :=
  match (course.attempt k).received.result with
  | .error (.transportTimeout _) => attempts course.socket course.policy course.query accept left
      (k + 1) (course.bufferAt (k + 1)) lent
  | .error _ => return ⟨none, course.bufferAt (k + 1), lent⟩
  | .ok size =>
    match accept (course.datagramAt k size) lent with
    | (.ok value, lent) => return ⟨some value, course.bufferAt (k + 1), lent⟩
    | (.error _, lent) => attempts course.socket course.policy course.query accept left (k + 1)
        (course.bufferAt (k + 1)) lent

theorem loop_waits (h : course.Waits k) :
    (course.loop accept (left + 1) k lent) =
      let rest := (course.afterRead accept left k lent).run course.network (course.networkAt (k + 1))
      ⟨rest.value, course.round k ++ rest.events, rest.network⟩ := by
  obtain ⟨⟨sent, hwrite⟩, htimer⟩ := h
  simp only [attempt, ask] at hwrite htimer
  rw [loop, attempts, Dialogue.run_request_bind]
  simp only [hwrite]
  rw [Dialogue.run_request_bind]
  simp only [htimer]
  rw [Dialogue.run_request_bind]
  rw [round, attempt, ask, hwrite, htimer]
  rfl

theorem loop_unread {reason : ResolveError} (hwaits : course.Waits k)
    (hread : (course.attempt k).received.result = .error reason)
    (hreason : ∀ server, reason ≠ .transportTimeout server) :
    (course.loop accept (left + 1) k lent).value = ⟨none, course.bufferAt (k + 1), lent⟩ ∧
      (course.loop accept (left + 1) k lent).events = course.round k := by
  rw [loop_waits hwaits, afterRead, hread]
  cases reason with
  | transportTimeout server => exact absurd rfl (hreason server)
  | _ => exact ⟨rfl, List.append_nil _⟩

/-- What is accepted does not depend on what the caller lent. -/
def Judges (course : Course σ α) (accept : Bytes → ω → Except Rejection α × ω) : Prop :=
  ∀ data lent, (accept data lent).1 = course.verdict data

theorem loop_delivers {value : α} (haccept : course.Judges accept) (h : course.Delivers k value) :
    (course.loop accept (left + 1) k lent).value =
        ⟨some value, course.bufferAt (k + 1), course.lend accept k lent⟩ ∧
      (course.loop accept (left + 1) k lent).events = course.round k := by
  obtain ⟨hwaits, size, hread, hverdict⟩ := h
  rw [← haccept _ lent] at hverdict
  rw [loop_waits hwaits, afterRead, lend, hread]
  dsimp only
  cases hjudged : accept (course.datagramAt k size) lent with
  | mk judged lent' =>
    rw [hjudged] at hverdict
    obtain rfl : judged = .ok value := hverdict
    exact ⟨rfl, List.append_nil _⟩

theorem loop_goesOn (haccept : course.Judges accept) (h : course.GoesOn k) :
    (course.loop accept (left + 1) k lent).value =
        (course.loop accept left (k + 1) (course.lend accept k lent)).value ∧
      (course.loop accept (left + 1) k lent).events =
        course.round k ++ (course.loop accept left (k + 1) (course.lend accept k lent)).events := by
  obtain ⟨hwaits, ⟨server, hread⟩ | ⟨size, reason, hread, hverdict⟩⟩ := h
  · rw [loop_waits hwaits, afterRead, lend, hread]
    exact ⟨rfl, rfl⟩
  · rw [← haccept _ lent] at hverdict
    rw [loop_waits hwaits, afterRead, lend, hread]
    dsimp only
    cases hjudged : accept (course.datagramAt k size) lent with
    | mk judged lent' =>
      rw [hjudged] at hverdict
      obtain rfl : judged = .error reason := hverdict
      exact ⟨rfl, rfl⟩

/-- Attempts that go on are made in full, and the loop comes to the next one. -/
theorem loop_after (haccept : course.Judges accept) (hbefore : ∀ j < k, course.GoesOn j)
    (left : Nat) (lent : ω) :
    (course.loop accept (k + left) 0 lent).value =
        (course.loop accept left k (course.lentAt accept lent k)).value ∧
      (course.loop accept (k + left) 0 lent).events =
        course.rounds k ++ (course.loop accept left k (course.lentAt accept lent k)).events := by
  induction k generalizing left with
  | zero =>
    rw [Nat.zero_add]
    exact ⟨rfl, rfl⟩
  | succ k ih =>
    have hearlier : ∀ j < k, course.GoesOn j := by
      intro j hj
      exact hbefore j (Nat.lt_succ_of_lt hj)
    obtain ⟨hvalue, hevents⟩ := ih hearlier (left + 1)
    obtain ⟨hvalue', hevents'⟩ := loop_goesOn haccept (hbefore k (Nat.lt_succ_self k))
    have hcount : k + 1 + left = k + (left + 1) := by omega
    rw [hcount, hvalue, hevents, hvalue', hevents', rounds_succ, List.append_assoc]
    exact ⟨rfl, rfl⟩

/-- What the loop comes to in attempt `k`, behind all attempts before it that went on. -/
theorem loop_ends {limit : Nat} {concluded : Concluded ω α} {events : List Event}
    (haccept : course.Judges accept) (hk : k < limit) (hbefore : ∀ j < k, course.GoesOn j)
    (lent : ω)
    (hlast : ∀ left, (course.loop accept (left + 1) k (course.lentAt accept lent k)).value =
        concluded ∧
      (course.loop accept (left + 1) k (course.lentAt accept lent k)).events = events) :
    (course.loop accept limit 0 lent).value = concluded ∧
      (course.loop accept limit 0 lent).events = course.rounds k ++ events := by
  obtain ⟨left, rfl⟩ : ∃ left, limit = k + (left + 1) := by
    refine ⟨limit - k - 1, ?_⟩
    omega
  obtain ⟨hvalue, hevents⟩ := loop_after haccept hbefore (left + 1) lent
  rw [hvalue, hevents, (hlast left).2]
  exact ⟨(hlast left).1, rfl⟩

theorem loop_spent {limit : Nat} (haccept : course.Judges accept)
    (hall : ∀ j < limit, course.GoesOn j) (lent : ω) :
    (course.loop accept limit 0 lent).value =
        ⟨none, course.bufferAt limit, course.lentAt accept lent limit⟩ ∧
      (course.loop accept limit 0 lent).events = course.rounds limit := by
  obtain ⟨hvalue, hevents⟩ := loop_after haccept hall 0 lent
  rw [Nat.add_zero] at hvalue hevents
  rw [hvalue, hevents]
  exact ⟨rfl, List.append_nil _⟩

/-- An attempt that does not go on failed at one of its three requests, or it delivered. -/
theorem ends_of_not_goesOn (h : ¬ course.GoesOn k) :
    (∃ reason, (course.attempt k).written = .error reason) ∨
    (∃ sent reason, (course.attempt k).written = .ok sent ∧
      (course.attempt k).armed = .error reason) ∨
    (course.Waits k ∧ ∃ reason, (course.attempt k).received.result = .error reason ∧
      ∀ server, reason ≠ .transportTimeout server) ∨
    ∃ value, course.Delivers k value := by
  cases hwrite : (course.attempt k).written with
  | error reason => exact .inl ⟨reason, rfl⟩
  | ok sent =>
    cases htimer : (course.attempt k).armed with
    | error reason => exact .inr (.inl ⟨sent, reason, rfl, rfl⟩)
    | ok done =>
      have hwaits : course.Waits k := ⟨⟨sent, hwrite⟩, htimer⟩
      cases hread : (course.attempt k).received.result with
      | error reason =>
        refine .inr (.inr (.inl ⟨hwaits, reason, rfl, ?_⟩))
        rintro server rfl
        exact h ⟨hwaits, .inl ⟨server, hread⟩⟩
      | ok size =>
        cases hverdict : course.verdict (course.datagramAt k size) with
        | error reason => exact absurd ⟨hwaits, .inr ⟨size, reason, hread, hverdict⟩⟩ h
        | ok value => exact .inr (.inr (.inr ⟨value, hwaits, size, hread, hverdict⟩))

theorem all_or_first_stop (course : Course σ α) (limit : Nat) :
    (∀ j < limit, course.GoesOn j) ∨
      ∃ k < limit, ¬ course.GoesOn k ∧ ∀ j < k, course.GoesOn j := by
  induction limit with
  | zero => exact .inl nofun
  | succ limit ih =>
    rcases ih with hall | ⟨k, hk, hstop⟩
    · by_cases hlast : course.GoesOn limit
      · left
        intro j hj
        rcases Nat.lt_succ_iff_lt_or_eq.mp hj with hj | rfl
        · exact hall j hj
        · exact hlast
      · exact .inr ⟨limit, Nat.lt_succ_self limit, hlast, hall⟩
    · exact .inr ⟨k, Nat.lt_succ_of_lt hk, hstop⟩

/-- An answer was delivered by an attempt behind others that went on. -/
theorem delivers_of_answer {limit : Nat} {value : α} (haccept : course.Judges accept)
    (h : (course.loop accept limit 0 lent).value.answer = some value) :
    ∃ k < limit, course.Delivers k value ∧ ∀ j < k, course.GoesOn j := by
  rcases all_or_first_stop course limit with hall | ⟨k, hk, hstop, hbefore⟩
  · rw [(loop_spent haccept hall lent).1] at h
    cases h
  · rcases ends_of_not_goesOn hstop with
      ⟨reason, hwrite⟩ | ⟨sent, reason, hwrite, htimer⟩ | ⟨hwaits, reason, hread, hreason⟩ |
      ⟨found, hdelivers⟩
    · have hends := loop_ends haccept hk hbefore lent (fun _ => loop_unsent hwrite)
      rw [hends.1] at h
      cases h
    · have hends := loop_ends haccept hk hbefore lent (fun _ => loop_unarmed hwrite htimer)
      rw [hends.1] at h
      cases h
    · have hends := loop_ends haccept hk hbefore lent (fun _ => loop_unread hwaits hread hreason)
      rw [hends.1] at h
      cases h
    · have hends := loop_ends haccept hk hbefore lent (fun _ => loop_delivers haccept hdelivers)
      rw [hends.1] at h
      obtain rfl := Option.some.inj h
      exact ⟨k, hk, hdelivers, hbefore⟩

end

/-- What becomes of a lookup that makes up to `limit` attempts: all attempts before the last one go
on, and how the last one ends decides the answer. A wait that runs out goes on only where it is the
read that reports it: a write or a timer that fails with it ends the lookup. -/
structure Law (limit : Nat) (events : List Event) (answer : Option α) : Prop where
  answer_iff : ∀ value, answer = some value ↔
    ∃ k < limit, course.Delivers k value ∧ ∀ j < k, course.GoesOn j
  delivered : ∀ k < limit, (∀ j < k, course.GoesOn j) → ∀ value, course.Delivers k value →
    events = course.rounds (k + 1)
  unsent : ∀ k < limit, (∀ j < k, course.GoesOn j) → ∀ reason,
    (course.attempt k).written = .error reason →
      answer = none ∧
        events = course.rounds k ++ [⟨.write course.socket course.query, .error reason⟩]
  unarmed : ∀ k < limit, (∀ j < k, course.GoesOn j) → ∀ sent reason,
    (course.attempt k).written = .ok sent → (course.attempt k).armed = .error reason →
      answer = none ∧
        events = course.rounds k ++ [⟨.write course.socket course.query, .ok sent⟩,
          ⟨.setTimeout course.socket (course.policy.timeoutFor k), .error reason⟩]
  unread : ∀ k < limit, (∀ j < k, course.GoesOn j) → course.Waits k → ∀ reason,
    (course.attempt k).received.result = .error reason →
      (∀ server, reason ≠ .transportTimeout server) →
        answer = none ∧ events = course.rounds (k + 1)
  spent : (∀ j < limit, course.GoesOn j) → answer = none ∧ events = course.rounds limit

variable {course}

/-- The loop keeps the law on every network. -/
theorem law_loop {accept : Bytes → ω → Except Rejection α × ω} (haccept : course.Judges accept)
    (limit : Nat) (lent : ω) :
    course.Law limit (course.loop accept limit 0 lent).events
      (course.loop accept limit 0 lent).value.answer := by
  constructor
  case answer_iff =>
    intro value
    constructor
    · exact delivers_of_answer haccept
    · rintro ⟨k, hk, h, hbefore⟩
      rw [(loop_ends haccept hk hbefore lent (fun _ => loop_delivers haccept h)).1]
  case delivered =>
    intro k hk hbefore value h
    rw [rounds_succ]
    exact (loop_ends haccept hk hbefore lent (fun _ => loop_delivers haccept h)).2
  case unsent =>
    intro k hk hbefore reason h
    have hends := loop_ends haccept hk hbefore lent (fun _ => loop_unsent h)
    exact ⟨congrArg Concluded.answer hends.1, hends.2⟩
  case unarmed =>
    intro k hk hbefore sent reason hwrite htimer
    have hends := loop_ends haccept hk hbefore lent (fun _ => loop_unarmed hwrite htimer)
    exact ⟨congrArg Concluded.answer hends.1, hends.2⟩
  case unread =>
    intro k hk hbefore hwaits reason h hreason
    rw [rounds_succ]
    have hends := loop_ends haccept hk hbefore lent (fun _ => loop_unread hwaits h hreason)
    exact ⟨congrArg Concluded.answer hends.1, hends.2⟩
  case spent =>
    intro hall
    have hends := loop_spent haccept hall lent
    exact ⟨congrArg Concluded.answer hends.1, hends.2⟩

end Course

variable {σ ω α : Type}

/-- The course of a lookup that sends `query` over the exchange. -/
def course (exchange : Exchange) (network : Network σ) (s : σ) (query : Bytes)
    (verdict : Bytes → Except Rejection α) : Course σ α where
  network := network
  start := s
  socket := exchange.socket
  policy := exchange.policy
  query := query
  response := exchange.response
  verdict := verdict

/-- A lookup makes no request at all when its question cannot be built, and else keeps the law. -/
structure Retransmits (exchange : Exchange) (network : Network σ) (s : σ) (question : Question)
    (verdict : Bytes → UInt16 → Bytes → Except Rejection α) (events : List Event)
    (answer : Option α) : Prop where
  unbuilt : ∀ reason filled,
    question.build (exchange.lastId + 1) exchange.query = (.error reason, filled) →
      answer = none ∧ events = []
  built : ∀ size filled,
    question.build (exchange.lastId + 1) exchange.query = (.ok size, filled) →
      let query := filled.bytes.take size
      (exchange.course network s query (verdict query (exchange.lastId + 1))).Law
        exchange.policy.maxAttempts.toNat events answer

theorem retransmits_transact (network : Network σ) (s : σ) (exchange : Exchange)
    (question : Question) (accept : Bytes → UInt16 → Bytes → ω → Except Rejection α × ω)
    (verdict : Bytes → UInt16 → Bytes → Except Rejection α)
    (haccept : ∀ query id data lent, (accept query id data lent).1 = verdict query id data)
    (lent : ω) :
    exchange.Retransmits network s question verdict
      ((exchange.transact question accept lent).run network s).events
      ((exchange.transact question accept lent).run network s).value.1 := by
  constructor
  · intro reason filled hbuild
    rw [run_transact_unbuilt hbuild]
    exact ⟨rfl, rfl⟩
  · intro size filled hbuild query
    rw [run_transact_built hbuild]
    have hjudges : (exchange.course network s query (verdict query (exchange.lastId + 1))).Judges
      (accept query (exchange.lastId + 1)) := haccept query (exchange.lastId + 1)
    exact Course.law_loop hjudges _ lent

/-- Every lookup of either kind keeps the law of retransmission, and each attempt waits twice as long
as the one before it, 31 times at most and never longer than the longest duration. -/
theorem lookups_retransmit (network : Network σ) (s : σ) (exchange : Exchange) :
    (∀ hostname,
      let lookup := (exchange.lookupAddress hostname).run network s
      exchange.Retransmits network s (.address hostname exchange.suffix)
        (fun query id data => Response.address query data id) lookup.events lookup.value.1) ∧
    (∀ target capacity (out : Buffer capacity),
      let lookup := (exchange.lookupName target out).run network s
      exchange.Retransmits network s (.name target)
        (fun query id data => (Response.name query data id out).1) lookup.events lookup.value.1) ∧
    ∀ attempt wait, exchange.policy.timeoutFor attempt = wait ↔
      wait.toNanos = min (exchange.policy.minWait.toNanos * 2 ^ min attempt 31)
        Duration.longest.toNanos := by
  refine ⟨?_, ?_, fun _ _ => RetryPolicy.timeoutFor_eq_iff⟩
  · intro hostname lookup
    rw [show lookup = _ from run_lookupAddress network s exchange hostname]
    exact retransmits_transact network s exchange _
      (fun query id data lent => (Response.address query data id, lent)) _ (fun _ _ _ _ => rfl) ()
  · intro target capacity out lookup
    exact retransmits_transact network s exchange (.name target)
      (fun query id data out => Response.name query data id out) _
      (fun query id data lent => Response.result_name query data id lent out) out

theorem eq_ok_of_toOption {ε : Type} {result : Except ε α} {value : α}
    (h : result.toOption = some value) : result = .ok value := by
  cases result with
  | error reason => cases h
  | ok found => rw [Option.some.inj h]

/-- A lookup that is answered in its second attempt, and one whose write times out. -/
theorem answered_in_second_attempt :
    let exchange : Exchange :=
      { socket := 0, server := .v4 ⟨192, 0, 2, 53⟩ 53, suffix := none, policy := {}, lastId := 6 }
    let query : Bytes := [0, 7, 1, 0, 0, 1, 0, 0, 0, 0, 0, 0, 1, 97, 0, 0, 1, 0, 1]
    let answering : ScriptedNetwork := { server := exchange.server, script := [.timeout,
      .reply { tail := [192, 12, 0, 1, 0, 1, 0, 0, 0, 60, 0, 4, 192, 0, 2, 7] } none] }
    let failing : ScriptedNetwork :=
      { server := exchange.server, script := [.writeError (.transportTimeout exchange.server)] }
    ((exchange.lookupAddress [97]).run ScriptedNetwork.network answering).value.1 =
      some ⟨192, 0, 2, 7⟩ ∧
    ((exchange.lookupAddress [97]).run ScriptedNetwork.network answering).events.map Event.request =
      [.write 0 query, .setTimeout 0 (.ofMillis 1000), .read 0 512,
        .write 0 query, .setTimeout 0 (.ofMillis 2000), .read 0 512] ∧
    ((exchange.lookupAddress [97]).run ScriptedNetwork.network failing).value.1 = none ∧
    ((exchange.lookupAddress [97]).run ScriptedNetwork.network failing).events.map Event.request =
      [.write 0 query] := by
  intro exchange query answering failing
  have hencodable : (Question.address [97] none).Encodable := by decide +kernel
  have hbytes : (Question.address [97] none).bytes (exchange.lastId + 1) = query := by
    decide +kernel
  have hbuild : (Question.address [97] none).build (exchange.lastId + 1) exchange.query =
      (.ok 19, exchange.query.overwrite 0 query) := by
    apply Question.build_ok_iff.mpr
    rw [hbytes]
    exact ⟨hencodable, by decide, rfl, rfl⟩
  have hquery : (exchange.query.overwrite 0 query).bytes.take 19 = query := rfl
  obtain ⟨hforward, _, hwaits⟩ := lookups_retransmit ScriptedNetwork.network answering exchange
  have hanswers := (hforward [97]).built 19 _ hbuild
  have hfails := ((lookups_retransmit ScriptedNetwork.network failing exchange).1 [97]).built 19
    _ hbuild
  rw [hquery] at hanswers hfails
  let course := exchange.course ScriptedNetwork.network answering query
    (fun data => Response.address query data (exchange.lastId + 1))
  have hbefore : ∀ j < 1, course.GoesOn j := by
    intro j hj
    obtain rfl := Nat.lt_one_iff.mp hj
    exact ⟨⟨⟨19, rfl⟩, rfl⟩, .inl ⟨_, rfl⟩⟩
  have hverdict : (Response.address query (course.datagramAt 1 35) (exchange.lastId + 1)).toOption =
      some ⟨192, 0, 2, 7⟩ := by
    decide +kernel
  have hdelivers : course.Delivers 1 ⟨192, 0, 2, 7⟩ :=
    ⟨⟨⟨19, rfl⟩, rfl⟩, 35, rfl, eq_ok_of_toOption hverdict⟩
  have hfirst : exchange.policy.timeoutFor 0 = .ofMillis 1000 := (hwaits 0 _).mpr (by decide)
  have hsecond : exchange.policy.timeoutFor 1 = .ofMillis 2000 := (hwaits 1 _).mpr (by decide)
  have hevents := hanswers.delivered 1 (by decide) hbefore _ hdelivers
  have hunsent := hfails.unsent 0 (by decide) nofun _ rfl
  refine ⟨(hanswers.answer_iff _).mpr ⟨1, by decide, hdelivers, hbefore⟩, ?_, hunsent.1, ?_⟩
  · rw [hevents, ← hfirst, ← hsecond]
    rfl
  · rw [hunsent.2]
    rfl

end StubDns.Exchange
