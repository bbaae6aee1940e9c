import StubDns.Exchange
import StubDns.Proofs.Association
import StubDns.Proofs.Query

/-! What the attempts of a lookup can come to, whatever the network does. -/
namespace StubDns

theorem Dialogue.run_request_bind {σ β : Type} (network : Network σ) (request : Request)
    (next : request.Reply → Dialogue β) (s : σ) :
    (Dialogue.request request >>= next).run network s =
      let replied := network.respond request s
      let rest := (next replied.1).run network replied.2
      ⟨rest.value, ⟨request, replied.1⟩ :: rest.events, rest.network⟩ := rfl

namespace Exchange
variable {σ ω α : Type} {socket : Socket} {policy : RetryPolicy} {query : Bytes}
  {accept : Bytes → ω → Except Rejection α × ω} {left attempt : Nat}
  {response : Buffer responseCapacity} {lent : ω} {events : List Event}
  {concluded : Concluded ω α} {value : α}

/-- A query that was written, a timer that was set and what then was read. -/
def round (socket : Socket) (policy : RetryPolicy) (query : Bytes) (attempt sent : Nat)
    (received : Received) : List Event :=
  [⟨.write socket query, .ok sent⟩, ⟨.setTimeout socket (policy.timeoutFor attempt), .ok ()⟩,
    ⟨.read socket responseCapacity, received⟩]

/-- What is taken for the datagram when the buffer was read into and `size` was reported. -/
def datagram (response : Buffer responseCapacity) (size : Nat) : Bytes :=
  response.bytes.take (min size responseCapacity)

/-- The events of up to `left` attempts, and what they come to. -/
inductive Attempts (socket : Socket) (policy : RetryPolicy) (query : Bytes)
    (accept : Bytes → ω → Except Rejection α × ω) :
    (left attempt : Nat) → Buffer responseCapacity → ω → List Event → Concluded ω α → Prop
  | spent {attempt : Nat} {response : Buffer responseCapacity} {lent : ω} :
      Attempts socket policy query accept 0 attempt response lent [] ⟨none, response, lent⟩
  | unsent {left attempt : Nat} {response : Buffer responseCapacity} {lent : ω}
      (reason : ResolveError) :
      Attempts socket policy query accept (left + 1) attempt response lent
        [⟨.write socket query, .error reason⟩] ⟨none, response, lent⟩
  | unarmed {left attempt : Nat} {response : Buffer responseCapacity} {lent : ω} (sent : Nat)
      (reason : ResolveError) :
      Attempts socket policy query accept (left + 1) attempt response lent
        [⟨.write socket query, .ok sent⟩,
          ⟨.setTimeout socket (policy.timeoutFor attempt), .error reason⟩] ⟨none, response, lent⟩
  | unread {left attempt : Nat} {response : Buffer responseCapacity} {lent : ω} (sent : Nat)
      (data : Bytes) (reason : ResolveError) :
      (∀ server, reason ≠ .transportTimeout server) →
      Attempts socket policy query accept (left + 1) attempt response lent
        (round socket policy query attempt sent ⟨data, .error reason⟩)
        ⟨none, response.overwrite 0 data, lent⟩
  | timedOut {left attempt : Nat} {response : Buffer responseCapacity} {lent : ω}
      {events : List Event} {concluded : Concluded ω α} (sent : Nat) (data : Bytes)
      (server : Endpoint) :
      Attempts socket policy query accept left (attempt + 1) (response.overwrite 0 data) lent
        events concluded →
      Attempts socket policy query accept (left + 1) attempt response lent
        (round socket policy query attempt sent ⟨data, .error (.transportTimeout server)⟩ ++ events)
        concluded
  | rejected {left attempt : Nat} {response : Buffer responseCapacity} {lent lent' : ω}
      {events : List Event} {concluded : Concluded ω α} (sent : Nat) (data : Bytes) (size : Nat)
      (reason : Rejection) :
      accept (datagram (response.overwrite 0 data) size) lent = (.error reason, lent') →
      Attempts socket policy query accept left (attempt + 1) (response.overwrite 0 data) lent'
        events concluded →
      Attempts socket policy query accept (left + 1) attempt response lent
        (round socket policy query attempt sent ⟨data, .ok size⟩ ++ events) concluded
  | accepted {left attempt : Nat} {response : Buffer responseCapacity} {lent lent' : ω}
      (sent : Nat) (data : Bytes) (size : Nat) (value : α) :
      accept (datagram (response.overwrite 0 data) size) lent = (.ok value, lent') →
      Attempts socket policy query accept (left + 1) attempt response lent
        (round socket policy query attempt sent ⟨data, .ok size⟩)
        ⟨some value, response.overwrite 0 data, lent'⟩

/-- Every run of the loop is one of these, on every network. -/
theorem attempts_run (network : Network σ) (s : σ) :
    Attempts socket policy query accept left attempt response lent
      ((attempts socket policy query accept left attempt response lent).run network s).events
      ((attempts socket policy query accept left attempt response lent).run network s).value := by
  induction left generalizing attempt response lent s with
  | zero => exact .spent
  | succ left ih =>
    rw [attempts, Dialogue.run_request_bind]
    cases hwrite : network.respond (.write socket query) s with
    | mk written s =>
    cases written with
    | error reason => exact .unsent reason
    | ok sent =>
    dsimp only
    rw [Dialogue.run_request_bind]
    cases htimer : network.respond (.setTimeout socket (policy.timeoutFor attempt)) s with
    | mk armed s =>
    cases armed with
    | error reason => exact .unarmed sent reason
    | ok done =>
    dsimp only
    rw [Dialogue.run_request_bind]
    cases hread : network.respond (.read socket responseCapacity) s with
    | mk received s =>
    obtain ⟨data, result⟩ := received
    cases result with
    | error reason =>
      cases reason with
      | transportTimeout server => exact .timedOut sent data server (ih s)
      | _ => exact .unread sent data _ nofun
    | ok size =>
      dsimp only
      rw [← datagram]
      cases haccept : accept (datagram (response.overwrite 0 data) size) lent with
      | mk judged lent' =>
      cases judged with
      | error reason => exact .rejected sent data size reason haccept (ih s)
      | ok value => exact .accepted sent data size value haccept

/-- The receive buffer after the reads among `events`. -/
def received (response : Buffer responseCapacity) : List Event → Buffer responseCapacity
  | [] => response
  | ⟨.read _ _, reply⟩ :: events => received (response.overwrite 0 reply.data) events
  | _ :: events => received response events

theorem Attempts.response_eq
    (h : Attempts socket policy query accept left attempt response lent events concluded) :
    concluded.response = received response events := by
  induction h with
  | spent => rfl
  | unsent => rfl
  | unarmed => rfl
  | unread => rfl
  | timedOut _ _ _ _ ih => exact ih
  | rejected _ _ _ _ _ _ ih => exact ih
  | accepted => rfl

theorem query_of_round {number sent : Nat} {reply : Received} {event : Event}
    (hevent : event ∈ round socket policy query number sent reply) {on : Socket} {written : Bytes}
    (hwrite : event.request = .write on written) : on = socket ∧ written = query := by
  simp only [round, List.mem_cons, List.not_mem_nil, or_false] at hevent
  rcases hevent with rfl | rfl | rfl
  · obtain ⟨rfl, rfl⟩ := Request.write.inj hwrite
    exact ⟨rfl, rfl⟩
  · cases hwrite
  · cases hwrite

/-- Only the query is ever written, and only on the socket. -/
theorem Attempts.query_of_write
    (h : Attempts socket policy query accept left attempt response lent events concluded)
    {event : Event} (hevent : event ∈ events) {on : Socket} {written : Bytes}
    (hwrite : event.request = .write on written) : on = socket ∧ written = query := by
  induction h with
  | spent => cases hevent
  | unsent =>
    obtain rfl := List.mem_singleton.mp hevent
    obtain ⟨rfl, rfl⟩ := Request.write.inj hwrite
    exact ⟨rfl, rfl⟩
  | unarmed sent reason =>
    rcases List.mem_cons.mp hevent with rfl | hevent
    · obtain ⟨rfl, rfl⟩ := Request.write.inj hwrite
      exact ⟨rfl, rfl⟩
    · obtain rfl := List.mem_singleton.mp hevent
      cases hwrite
  | unread => exact query_of_round hevent hwrite
  | accepted => exact query_of_round hevent hwrite
  | timedOut _ _ _ _ ih =>
    rcases List.mem_append.mp hevent with hevent | hevent
    · exact query_of_round hevent hwrite
    · exact ih hevent
  | rejected _ _ _ _ _ _ ih =>
    rcases List.mem_append.mp hevent with hevent | hevent
    · exact query_of_round hevent hwrite
    · exact ih hevent

theorem socket?_of_round {number sent : Nat} {reply : Received} {event : Event}
    (hevent : event ∈ round socket policy query number sent reply) :
    event.socket? = some socket := by
  simp only [round, List.mem_cons, List.not_mem_nil, or_false] at hevent
  rcases hevent with rfl | rfl | rfl <;> rfl

/-- Nothing is asked of any other association. -/
theorem Attempts.socket?_of_mem
    (h : Attempts socket policy query accept left attempt response lent events concluded)
    {event : Event} (hevent : event ∈ events) : event.socket? = some socket := by
  induction h with
  | spent => cases hevent
  | unsent =>
    obtain rfl := List.mem_singleton.mp hevent
    rfl
  | unarmed =>
    rcases List.mem_cons.mp hevent with rfl | hevent
    · rfl
    · obtain rfl := List.mem_singleton.mp hevent
      rfl
  | unread => exact socket?_of_round hevent
  | accepted => exact socket?_of_round hevent
  | timedOut _ _ _ _ ih =>
    rcases List.mem_append.mp hevent with hevent | hevent
    · exact socket?_of_round hevent
    · exact ih hevent
  | rejected _ _ _ _ _ _ ih =>
    rcases List.mem_append.mp hevent with hevent | hevent
    · exact socket?_of_round hevent
    · exact ih hevent

/-- An answer is what `accept` makes of the datagram that was read last. -/
theorem Attempts.accept_of_answer
    (h : Attempts socket policy query accept left attempt response lent events concluded)
    (hvalue : concluded.answer = some value) :
    ∃ earlier number sent data size before,
      events = earlier ++ round socket policy query number sent ⟨data, .ok size⟩ ∧
        accept (datagram concluded.response size) before = (.ok value, concluded.lent) := by
  induction h with
  | spent => cases hvalue
  | unsent => cases hvalue
  | unarmed => cases hvalue
  | unread => cases hvalue
  | timedOut _ _ _ _ ih =>
    obtain ⟨earlier, number, sent, data, size, before, rfl, haccept⟩ := ih hvalue
    exact ⟨_ ++ earlier, number, sent, data, size, before, (List.append_assoc ..).symm, haccept⟩
  | rejected _ _ _ _ _ _ ih =>
    obtain ⟨earlier, number, sent, data, size, before, rfl, haccept⟩ := ih hvalue
    exact ⟨_ ++ earlier, number, sent, data, size, before, (List.append_assoc ..).symm, haccept⟩
  | accepted sent data size found haccept =>
    obtain rfl := Option.some.inj hvalue
    exact ⟨[], _, sent, data, size, _, rfl, haccept⟩

/-- Two exchanges that differ in nothing but their ids and their buffers. -/
structure SameTerms (exchange other : Exchange) : Prop where
  socket : exchange.socket = other.socket
  server : exchange.server = other.server
  suffix : exchange.suffix = other.suffix
  policy : exchange.policy = other.policy

theorem SameTerms.trans {exchange other third : Exchange} (h : exchange.SameTerms other)
    (h' : other.SameTerms third) : exchange.SameTerms third :=
  ⟨h.socket.trans h'.socket, h.server.trans h'.server, h.suffix.trans h'.suffix,
    h.policy.trans h'.policy⟩

/-- What a lookup does with its id and its buffers, and what its events are. -/
inductive Transacts (exchange : Exchange) (question : Question)
    (accept : (query : Bytes) → (id : UInt16) → Bytes → ω → Except Rejection α × ω) (lent : ω) :
    List Event → Option α × ω × Exchange → Prop
  | unbuilt {reason : WireError} {filled : Buffer queryCapacity} :
      question.build (exchange.lastId + 1) exchange.query = (.error reason, filled) →
      Transacts exchange question accept lent []
        (none, lent, { exchange with lastId := exchange.lastId + 1, query := filled })
  | built {size : Nat} {filled : Buffer queryCapacity} {events : List Event}
      {concluded : Concluded ω α} :
      question.build (exchange.lastId + 1) exchange.query = (.ok size, filled) →
      Attempts exchange.socket exchange.policy (filled.bytes.take size)
        (accept (filled.bytes.take size) (exchange.lastId + 1)) exchange.policy.maxAttempts.toNat 0
        exchange.response lent events concluded →
      Transacts exchange question accept lent events
        (concluded.answer, concluded.lent, { exchange with
          lastId := exchange.lastId + 1, query := filled, response := concluded.response })

section
variable {exchange : Exchange} {question : Question}
  {accept : (query : Bytes) → (id : UInt16) → Bytes → ω → Except Rejection α × ω}
  {result : Option α × ω × Exchange}

/-- A transaction uses one id up, whatever becomes of it. -/
theorem Transacts.lastId_eq (h : Transacts exchange question accept lent events result) :
    result.2.2.lastId = exchange.lastId + 1 := by
  cases h with
  | unbuilt => rfl
  | built => rfl

theorem Transacts.socket?_of_mem (h : Transacts exchange question accept lent events result)
    {event : Event} (hevent : event ∈ events) : event.socket? = some exchange.socket := by
  cases h with
  | unbuilt => cases hevent
  | built _ hattempts => exact hattempts.socket?_of_mem hevent

/-- The terms of the association stay as they were when it was opened. -/
theorem Transacts.sameTerms (h : Transacts exchange question accept lent events result) :
    result.2.2.SameTerms exchange := by
  cases h with
  | unbuilt => exact ⟨rfl, rfl, rfl, rfl⟩
  | built => exact ⟨rfl, rfl, rfl, rfl⟩

/-- A transaction writes the question's own query under the id it uses up. -/
theorem Transacts.query_of_write (h : Transacts exchange question accept lent events result)
    {event : Event} (hevent : event ∈ events) {on : Socket} {written : Bytes}
    (hwrite : event.request = .write on written) :
    on = exchange.socket ∧ written = question.bytes (exchange.lastId + 1) := by
  cases h with
  | unbuilt => cases hevent
  | built hbuild hattempts =>
    rw [← Question.take_of_build hbuild]
    exact hattempts.query_of_write hevent hwrite

end

section
variable {network : Network σ} {s : σ} {exchange : Exchange} {question : Question}
  {accept : (query : Bytes) → (id : UInt16) → Bytes → ω → Except Rejection α × ω}
  {filled : Buffer queryCapacity}

theorem run_transact_unbuilt {reason : WireError}
    (hbuild : question.build (exchange.lastId + 1) exchange.query = (.error reason, filled)) :
    (exchange.transact question accept lent).run network s =
      ⟨(none, lent, { exchange with lastId := exchange.lastId + 1, query := filled }), [], s⟩ := by
  unfold transact
  simp only [hbuild]
  rfl

theorem run_transact_built {size : Nat}
    (hbuild : question.build (exchange.lastId + 1) exchange.query = (.ok size, filled)) :
    (exchange.transact question accept lent).run network s =
      let done := (attempts exchange.socket exchange.policy (filled.bytes.take size)
        (accept (filled.bytes.take size) (exchange.lastId + 1)) exchange.policy.maxAttempts.toNat 0
          exchange.response lent).run network s
      ⟨(done.value.answer, done.value.lent, { exchange with
        lastId := exchange.lastId + 1, query := filled, response := done.value.response }),
          done.events, done.network⟩ := by
  unfold transact
  simp only [hbuild, Dialogue.run_bind, Pure.pure, Dialogue.run, List.append_nil]

end

theorem transact_run (network : Network σ) (s : σ) (exchange : Exchange) (question : Question)
    (accept : (query : Bytes) → (id : UInt16) → Bytes → ω → Except Rejection α × ω) (lent : ω) :
    Transacts exchange question accept lent
      ((exchange.transact question accept lent).run network s).events
      ((exchange.transact question accept lent).run network s).value := by
  cases hbuild : question.build (exchange.lastId + 1) exchange.query with
  | mk result filled =>
    cases result with
    | error reason =>
      rw [run_transact_unbuilt hbuild]
      exact .unbuilt hbuild
    | ok size =>
      rw [run_transact_built hbuild]
      exact .built hbuild (attempts_run network s)

/-- A forward lookup is a transaction that lends nothing. -/
theorem run_lookupAddress (network : Network σ) (s : σ) (exchange : Exchange) (hostname : Bytes) :
    (exchange.lookupAddress hostname).run network s =
      let done := (exchange.transact (.address hostname exchange.suffix)
        (fun query id datagram lent => (Response.address query datagram id, lent)) ()).run network s
      ⟨(done.value.1, done.value.2.2), done.events, done.network⟩ := by
  unfold lookupAddress
  simp only [Dialogue.run_bind, Pure.pure, Dialogue.run, List.append_nil]

end Exchange
end StubDns
