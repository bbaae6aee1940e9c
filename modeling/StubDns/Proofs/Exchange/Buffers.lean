import StubDns.Proofs.Exchange.History

/-! What the buffers of an exchange hold from earlier lookups makes no difference to later ones, as
long as a read reports no more than it has laid over its buffer. -/
namespace StubDns

/-- A read reports just as many bytes as it has laid over the buffer. -/
def Event.reportsCopied : Event → Bool
  | ⟨.read _ capacity, received⟩ =>
    match received.result with
    | .ok size => size == min received.data.length capacity
    | .error _ => true
  | _ => true

/-- Two finished dialogues that nobody outside can tell apart, with values that are the same. -/
structure Finished.Alike {σ α : Type} (same : α → α → Prop) (done other : Finished σ α) :
    Prop where
  events : done.events = other.events
  network : done.network = other.network
  value : same done.value other.value

/-- What is asked for first gets the same reply. -/
theorem Dialogue.alike_request {σ α : Type} {network : Network σ} {s t : σ} {same : α → α → Prop}
    {request : Request} {reply : request.Reply} {next next' : request.Reply → Dialogue α}
    (hreply : network.respond request s = (reply, t))
    (h : ((next reply).run network t).Alike same ((next' reply).run network t)) :
    ((Dialogue.request request >>= next).run network s).Alike same
      ((Dialogue.request request >>= next').run network s) := by
  rw [run_request_bind, run_request_bind, hreply]
  exact ⟨congrArg (List.cons _) h.events, h.network, h.value⟩

/-- A query that can be built in one buffer can be built in any other. -/
theorem Question.build_anywhere {capacity size : Nat} {question : Question} {id : UInt16}
    {buffer filled : Buffer capacity} (h : question.build id buffer = (.ok size, filled))
    (buffer' : Buffer capacity) :
    question.build id buffer' = (.ok size, buffer'.overwrite 0 (question.bytes id)) := by
  obtain ⟨hencodable, hroom, hsize, -⟩ := build_ok_iff.mp h
  exact build_ok_iff.mpr ⟨hencodable, hroom, hsize, rfl⟩

namespace Exchange

variable {σ ω α : Type} {network : Network σ} {s : σ} {exchange other : Exchange}
  {socket : Socket} {policy : RetryPolicy} {query data : Bytes}
  {accept : Bytes → ω → Except Rejection α × ω} {left attempt : Nat}
  {response response' : Buffer responseCapacity} {lent : ω} {size : Nat}

/-- What is taken of a datagram is a part of its front, whatever the buffer held before. -/
theorem datagram_overwrite_of_le (response : Buffer responseCapacity) (h : size ≤ data.length) :
    datagram (response.overwrite 0 data) size = data.take (min size responseCapacity) := by
  unfold datagram Buffer.overwrite
  simp only [List.take_zero, List.nil_append, List.take_take]
  rw [Nat.min_eq_left (Nat.min_le_right size responseCapacity),
    List.take_append_of_le_length (by omega)]

/-- A datagram of which no more is taken than was received is the same in any buffer. -/
theorem datagram_overwrite (response : Buffer responseCapacity) (data : Bytes) :
    datagram (response.overwrite 0 data) (min data.length responseCapacity) =
      data.take responseCapacity := by
  rw [datagram_overwrite_of_le response (Nat.min_le_left _ _), List.take_eq_take_iff]
  omega

/-- The attempts of a lookup do not depend on what the receive buffer held before them. -/
theorem alike_attempts (response' : Buffer responseCapacity)
    (hreads : ∀ event ∈ ((attempts socket policy query accept left attempt response lent).run
      network s).events, event.reportsCopied) :
    ((attempts socket policy query accept left attempt response lent).run network s).Alike
      (fun concluded concluded' => concluded.answer = concluded'.answer ∧
        concluded.lent = concluded'.lent)
      ((attempts socket policy query accept left attempt response' lent).run network s) := by
  induction left generalizing attempt response response' lent s with
  | zero => exact ⟨rfl, rfl, rfl, rfl⟩
  | succ left ih =>
    rw [attempts, Dialogue.run_request_bind] at hreads
    rw [attempts, attempts]
    cases hwrite : network.respond (.write socket query) s with
    | mk written t =>
    rw [hwrite] at hreads
    apply Dialogue.alike_request hwrite
    cases written with
    | error reason => exact ⟨rfl, rfl, rfl, rfl⟩
    | ok sent =>
    replace hreads := (List.forall_mem_cons.mp hreads).2
    dsimp only at hreads ⊢
    rw [Dialogue.run_request_bind] at hreads
    cases htimer : network.respond (.setTimeout socket (policy.timeoutFor attempt)) t with
    | mk armed t =>
    rw [htimer] at hreads
    apply Dialogue.alike_request htimer
    cases armed with
    | error reason => exact ⟨rfl, rfl, rfl, rfl⟩
    | ok done =>
    replace hreads := (List.forall_mem_cons.mp hreads).2
    dsimp only at hreads ⊢
    rw [Dialogue.run_request_bind] at hreads
    cases hread : network.respond (.read socket responseCapacity) t with
    | mk received t =>
    rw [hread] at hreads
    apply Dialogue.alike_request hread
    obtain ⟨data, result⟩ := received
    obtain ⟨hexact, hrest⟩ := List.forall_mem_cons.mp hreads
    cases result with
    | error reason =>
      cases reason with
      | transportTimeout server => exact ih _ hrest
      | _ => exact ⟨rfl, rfl, rfl, rfl⟩
    | ok size =>
      obtain rfl : size = min data.length responseCapacity := beq_iff_eq.mp hexact
      dsimp only at hrest ⊢
      rw [← datagram, datagram_overwrite] at hrest ⊢
      rw [← datagram, datagram_overwrite]
      cases haccept : accept (data.take responseCapacity) lent with
      | mk judged lent' =>
      rw [haccept] at hrest
      cases judged with
      | error reason => exact ih _ hrest
      | ok value => exact ⟨rfl, rfl, rfl, rfl⟩

/-- Two exchanges that differ in nothing but their buffers. -/
structure SameButBuffers (exchange other : Exchange) : Prop extends SameTerms exchange other where
  lastId : exchange.lastId = other.lastId

theorem SameButBuffers.eq (h : exchange.SameButBuffers other) :
    other = { exchange with query := other.query, response := other.response } := by
  obtain ⟨⟨hsocket, hserver, hsuffix, hpolicy⟩, hid⟩ := h
  cases other
  simp_all

/-- Whether a question can be built, and what is sent for it, does not depend on the buffers. -/
theorem alike_transact {question : Question}
    {accept : (query : Bytes) → (id : UInt16) → Bytes → ω → Except Rejection α × ω}
    (h : exchange.SameButBuffers other)
    (hreads : ∀ event ∈ ((exchange.transact question accept lent).run network s).events,
      event.reportsCopied) :
    ((exchange.transact question accept lent).run network s).Alike
      (fun result result' => result.1 = result'.1 ∧ result.2.1 = result'.2.1 ∧
        result.2.2.SameButBuffers result'.2.2)
      ((other.transact question accept lent).run network s) := by
  rw [h.eq]
  cases hbuild : question.build (exchange.lastId + 1) exchange.query with
  | mk built filled =>
  cases hother : question.build (exchange.lastId + 1) other.query with
  | mk built' filled' =>
  cases built with
  | error reason =>
    cases built' with
    | ok size =>
      rw [Question.build_anywhere hother] at hbuild
      cases hbuild
    | error reason' =>
      rw [run_transact_unbuilt hbuild, run_transact_unbuilt (by exact hother)]
      exact ⟨rfl, rfl, rfl, rfl, ⟨rfl, rfl, rfl, rfl⟩, rfl⟩
  | ok size =>
    obtain ⟨rfl, rfl⟩ : .ok size = built' ∧ _ = filled' :=
      Prod.mk.inj ((Question.build_anywhere hbuild other.query).symm.trans hother)
    rw [run_transact_built hbuild] at hreads ⊢
    rw [run_transact_built (by exact hother)]
    rw [Question.take_of_build hbuild] at hreads ⊢
    rw [Question.take_of_build hother]
    have hattempts := alike_attempts other.response hreads
    exact ⟨hattempts.events, hattempts.network, hattempts.value.1, hattempts.value.2,
      ⟨rfl, rfl, rfl, rfl⟩, rfl⟩

/-- One lookup of any kind does not depend on what the buffers hold. -/
theorem alike_carry {call : Call} (h : exchange.SameButBuffers other)
    (hreads : ∀ event ∈ ((exchange.carry call).run network s).events, event.reportsCopied) :
    ((exchange.carry call).run network s).Alike
      (fun result result' => result.1 = result'.1 ∧ result.2.SameButBuffers result'.2)
      ((other.carry call).run network s) := by
  cases call with
  | address hostname =>
    simp only [carry, Dialogue.run_bind, run_lookupAddress, Pure.pure, Dialogue.run,
      List.append_nil] at hreads ⊢
    rw [← h.suffix]
    have halike := alike_transact h hreads
    exact ⟨halike.events, halike.network, congrArg Answer.address halike.value.1,
      halike.value.2.2⟩
  | name target out =>
    simp only [carry, lookupName, Dialogue.run_bind, Pure.pure, Dialogue.run,
      List.append_nil] at hreads ⊢
    have halike := alike_transact h hreads
    refine ⟨halike.events, halike.network, ?_, halike.value.2.2⟩
    rw [halike.value.1, halike.value.2.1]

/-- The exchange and the network after some lookups. -/
def outcome (network : Network σ) (exchange : Exchange) (s : σ) : List Call → Exchange × σ
  | [] => (exchange, s)
  | call :: calls =>
    let done := (exchange.carry call).run network s
    outcome network done.value.2 done.network calls

theorem history_append (network : Network σ) (exchange : Exchange) (s : σ)
    (before later : List Call) :
    history network exchange s (before ++ later) =
      history network exchange s before ++
        history network (outcome network exchange s before).1
          (outcome network exchange s before).2 later := by
  induction before generalizing exchange s with
  | nil => rfl
  | cons call before ih => exact congrArg _ (ih _ _)

/-- Lookups change nothing about an exchange but its buffers and its id, which goes on by one for
each of them. -/
theorem outcome_sameButBuffers (network : Network σ) (exchange : Exchange) (s : σ)
    (before : List Call) :
    (outcome network exchange s before).1.SameButBuffers
      { exchange with lastId := exchange.lastId + UInt16.ofNat before.length } := by
  induction before generalizing exchange s with
  | nil => exact ⟨⟨rfl, rfl, rfl, rfl⟩, (UInt16.add_zero exchange.lastId).symm⟩
  | cons call before ih =>
    obtain ⟨hterms, hid⟩ := ih ((exchange.carry call).run network s).value.2
      ((exchange.carry call).run network s).network
    refine ⟨hterms.trans ?_, hid.trans ?_⟩
    · have hcall := (run_carry_sameTerms network s exchange call).2
      exact ⟨hcall.socket, hcall.server, hcall.suffix, hcall.policy⟩
    · dsimp only
      rw [(run_carry call).1, List.length_cons, UInt16.ofNat_add, UInt16.add_assoc,
        UInt16.add_comm (UInt16.ofNat before.length)]
      rfl

/-- Two exchanges that differ in nothing but their buffers go through the same lookups alike. -/
theorem alike_history {calls : List Call} (h : exchange.SameButBuffers other)
    (hreads : ∀ lookup ∈ history network exchange s calls,
      ∀ event ∈ lookup.done.events, event.reportsCopied) :
    (history network exchange s calls).map (fun lookup => (lookup.done.value.1, lookup.done.events)) =
      (history network other s calls).map
        fun lookup => (lookup.done.value.1, lookup.done.events) := by
  induction calls generalizing exchange other s with
  | nil => rfl
  | cons call calls ih =>
    obtain ⟨hcall, hcalls⟩ := List.forall_mem_cons.mp hreads
    have halike := alike_carry h hcall
    have hrest := ih halike.value.2 hcalls
    rw [history, history, List.map_cons, List.map_cons, ← halike.events, ← halike.value.1,
      ← halike.network, hrest]

/-- Two exchanges that differ in nothing but their buffers give the same answers, lend back the same
bytes and have the same events in all lookups of a run, provided that the reads of one of the runs
report what they have copied. So each lookup comes to what it comes to over an exchange with empty
buffers, and earlier ones matter to it by their number and by what the network makes of them. -/
theorem lookups_ignore_buffers (network : Network σ) (s : σ) (exchange other : Exchange)
    (calls : List Call) (hother : exchange.SameButBuffers other)
    (hreads : ∀ lookup ∈ history network exchange s calls,
      ∀ event ∈ lookup.done.events, event.reportsCopied) :
    let run := history network exchange s calls
    run.map (fun lookup => (lookup.done.value.1, lookup.done.events)) =
      (history network other s calls).map
        (fun lookup => (lookup.done.value.1, lookup.done.events)) ∧
    ∀ before call later, calls = before ++ call :: later →
      let found := outcome network exchange s before
      let empty : Exchange :=
        { exchange with
          lastId := exchange.lastId + UInt16.ofNat before.length
          query := Buffer.zero queryCapacity
          response := Buffer.zero responseCapacity }
      let done := (found.1.carry call).run network found.2
      let afresh := (empty.carry call).run network found.2
      run[before.length]? = some ⟨found.1, call, done⟩ ∧ done.value.1 = afresh.value.1 ∧
        done.events = afresh.events ∧ done.network = afresh.network := by
  refine ⟨alike_history hother hreads, ?_⟩
  rintro before call later rfl found empty done afresh
  have hrun := history_append network exchange s before (call :: later)
  have hlength : (history network exchange s before).length = before.length := by
    rw [← List.length_map Lookup.call, map_call_history]
  have hplace : (history network exchange s (before ++ call :: later))[before.length]? =
      some ⟨found.1, call, done⟩ := by
    rw [hrun, ← hlength, List.getElem?_append_right (Nat.le_refl _), Nat.sub_self]
    rfl
  have hempty : found.1.SameButBuffers empty := by
    obtain ⟨⟨hsocket, hserver, hsuffix, hpolicy⟩, hid⟩ :=
      outcome_sameButBuffers network exchange s before
    exact ⟨⟨hsocket, hserver, hsuffix, hpolicy⟩, hid⟩
  have halike := alike_carry hempty (hreads _ (List.mem_of_getElem? hplace))
  exact ⟨hplace, halike.value.1, halike.events, halike.network⟩

/-- A receive buffer in which a whole answer to the next query is left over: a datagram that is cut
short is not completed out of it, unless the read reports more than it has copied. -/
theorem leftover_answer_ignored :
    let exchange : Exchange :=
      { socket := 0, server := .v4 ⟨192, 0, 2, 53⟩ 53, suffix := none,
        policy := { maxAttempts := 1 }, lastId := 6 }
    let tail : Bytes := [192, 12, 0, 1, 0, 1, 0, 0, 0, 60, 0, 4, 192, 0, 2, 7]
    let start : Bytes := [0, 7, 129, 128, 0, 1, 0, 1, 0, 0, 0, 0, 1, 97, 0, 0, 1, 0, 1]
    let other : Exchange :=
      { exchange with response := exchange.response.overwrite 0 (start ++ tail) }
    let exact : ScriptedNetwork :=
      { server := exchange.server, script := [.raw start none, .reply { tail } none] }
    let inexact : ScriptedNetwork := { server := exchange.server, script := [.raw start (some 35)] }
    let calls : List Call := [.address [97], .address [97]]
    let answers (exchange : Exchange) (s : ScriptedNetwork) : List Answer :=
      (history ScriptedNetwork.network exchange s calls).map (·.done.value.1)
    exchange.SameButBuffers other ∧
    (∀ lookup ∈ history ScriptedNetwork.network exchange exact calls,
      ∀ event ∈ lookup.done.events, event.reportsCopied) ∧
    answers exchange exact = [.address none, .address (some ⟨192, 0, 2, 7⟩)] ∧
    answers other exact = [.address none, .address (some ⟨192, 0, 2, 7⟩)] ∧
    answers other inexact = [.address (some ⟨192, 0, 2, 7⟩), .address none] := by
  intro exchange tail start other exact inexact calls answers
  have hother : exchange.SameButBuffers other := ⟨⟨rfl, rfl, rfl, rfl⟩, rfl⟩
  have hreads : ∀ lookup ∈ history ScriptedNetwork.network exchange exact calls,
      ∀ event ∈ lookup.done.events, event.reportsCopied := by
    decide +kernel
  have hanswers : answers exchange exact = [.address none, .address (some ⟨192, 0, 2, 7⟩)] := by
    decide +kernel
  have hsame := congrArg (List.map Prod.fst)
    (lookups_ignore_buffers ScriptedNetwork.network exact exchange other calls hother hreads).1
  rw [List.map_map, List.map_map] at hsame
  exact ⟨hother, hreads, hanswers, hsame.symm.trans hanswers, by decide +kernel⟩

end Exchange
end StubDns
