import Mathlib.Order.Monotone.Basic
import StubDns.Proofs.Duration
import StubDns.Proofs.Exchange.Writes

/-! How long a lookup can wait. It sets the timers of its policy's schedule in their order, so that
no lookup waits longer than all of them together, and one that gets no answer waits just as long. -/
namespace StubDns

/-- The wait of a timer, whether or not it could be set. -/
def Event.armed? (event : Event) : Option Duration :=
  match event.request with
  | .setTimeout _ wait => some wait
  | _ => none

/-- Waits one after the other, as one wait. -/
def Duration.total (waits : List Duration) : Duration := waits.foldl Duration.add Duration.zero

namespace RetryPolicy

theorem total_timeoutFor (policy : RetryPolicy) (count : Nat) :
    Duration.total ((List.range count).map policy.timeoutFor) = policy.waited count := by
  induction count with
  | zero => rfl
  | succ count ih =>
    rw [List.range_succ, List.map_append, Duration.total, List.foldl_append, ← Duration.total, ih]
    rfl

theorem monotone_waited (policy : RetryPolicy) :
    Monotone fun count : Nat => (policy.waited count).toNanos := by
  apply monotone_nat_of_le_succ
  intro count
  rw [toNanos_waited, toNanos_waited, firstWaitsIn_succ, Nat.mul_add]
  omega

end RetryPolicy

namespace Exchange

variable {ω α : Type} {socket : Socket} {policy : RetryPolicy} {query : Bytes}
  {accept : Bytes → ω → Except Rejection α × ω} {left attempt : Nat}
  {response : Buffer responseCapacity} {lent : ω} {events : List Event}
  {concluded : Concluded ω α} {takes : Bytes → Bool}

/-- A read runs out of time, or brings a datagram that is not taken. -/
def misses (takes : Bytes → Bool) (response : Buffer responseCapacity) :
    Except ResolveError Nat → Bool
  | .error (.transportTimeout _) => true
  | .error _ => false
  | .ok size => !takes (datagram response size)

/-- Every write and every timer succeeds, and every read misses. -/
def fruitless (takes : Bytes → Bool) : Buffer responseCapacity → List Event → Bool
  | _, [] => true
  | response, ⟨.write _ _, reply⟩ :: events => reply.isOk && fruitless takes response events
  | response, ⟨.setTimeout _ _, reply⟩ :: events => reply.isOk && fruitless takes response events
  | response, ⟨.read _ _, received⟩ :: events =>
    let response := response.overwrite 0 received.data
    misses takes response received.result && fruitless takes response events
  | response, _ :: events => fruitless takes response events

theorem fruitless_round {sent : Nat} {received : Received} :
    fruitless takes response (round socket policy query attempt sent received ++ events) =
      (misses takes (response.overwrite 0 received.data) received.result &&
        fruitless takes (response.overwrite 0 received.data) events) := rfl

theorem misses_error {reason : ResolveError} (h : ∀ server, reason ≠ .transportTimeout server) :
    misses takes response (.error reason) = false := by
  cases reason with
  | transportTimeout server => exact absurd rfl (h server)
  | _ => rfl

/-- Every attempt that is made sets one timer, if its query can be written. -/
theorem Attempts.armed_eq
    (h : Attempts socket policy query accept left attempt response lent events concluded) :
    ∃ made ≤ left,
      events.filterMap Event.armed? = (List.range' attempt made).map policy.timeoutFor := by
  induction h with
  | spent | unsent => exact ⟨0, Nat.zero_le _, rfl⟩
  | unarmed | unread | accepted => exact ⟨1, Nat.le_add_left 1 _, rfl⟩
  | timedOut _ _ _ _ ih | rejected _ _ _ _ _ _ ih =>
    obtain ⟨made, hmade, hevents⟩ := ih
    refine ⟨made + 1, Nat.succ_le_succ hmade, ?_⟩
    rw [List.filterMap_append, hevents]
    rfl

/-- Attempts of which nothing comes are all made. -/
theorem Attempts.armed_of_fruitless
    (h : Attempts socket policy query accept left attempt response lent events concluded)
    (htakes : ∀ data lent, (accept data lent).1.isOk = takes data)
    (hfruitless : fruitless takes response events) :
    events.filterMap Event.armed? = (List.range' attempt left).map policy.timeoutFor := by
  induction h with
  | spent => rfl
  | unsent => cases hfruitless
  | unarmed => cases hfruitless
  -- a lookup that ends early has a last round that does not miss
  | unread sent data reason hreason =>
    rw [← List.append_nil (round ..), fruitless_round, misses_error hreason] at hfruitless
    cases hfruitless
  | accepted sent data size value haccept =>
    rw [← List.append_nil (round ..), fruitless_round, misses, ← htakes, haccept] at hfruitless
    cases hfruitless
  | timedOut _ _ _ _ ih | rejected _ _ _ _ _ _ ih =>
    rw [fruitless_round, Bool.and_eq_true] at hfruitless
    rw [List.filterMap_append, ih hfruitless.2]
    rfl

section
variable {exchange : Exchange} {question : Question}
  {accept : (query : Bytes) → (id : UInt16) → Bytes → ω → Except Rejection α × ω}
  {result : Option α × ω × Exchange} {takes : Bytes → UInt16 → Bytes → Bool}

theorem Transacts.armed_eq (h : Transacts exchange question accept lent events result) :
    ∃ made ≤ exchange.policy.maxAttempts.toNat,
      events.filterMap Event.armed? = (List.range made).map exchange.policy.timeoutFor := by
  cases h with
  | unbuilt => exact ⟨0, Nat.zero_le _, rfl⟩
  | built _ hattempts =>
    obtain ⟨made, hmade, hevents⟩ := hattempts.armed_eq
    rw [← List.range_eq_range'] at hevents
    exact ⟨made, hmade, hevents⟩

theorem Transacts.armed_of_fruitless (h : Transacts exchange question accept lent events result)
    (hencodable : question.Encodable)
    (htakes : ∀ query id data lent, (accept query id data lent).1.isOk = takes query id data)
    (hfruitless : fruitless (takes (question.bytes (exchange.lastId + 1)) (exchange.lastId + 1))
      exchange.response events) :
    events.filterMap Event.armed? =
      (List.range exchange.policy.maxAttempts.toNat).map exchange.policy.timeoutFor := by
  obtain ⟨concluded, hattempts⟩ := h.attempts_of_encodable hencodable
  rw [List.range_eq_range']
  exact hattempts.armed_of_fruitless (htakes _ _) hfruitless

end

/-- The timers that a lookup sets are those of its policy's schedule from the first one on, and come
to no more than the whole schedule. They are all of it, and come to just as much, where the question
can be built and nothing comes of any attempt. -/
theorem waits_within_total {σ : Type} (network : Network σ) (s : σ) (exchange : Exchange)
    (call : Call) :
    let policy := exchange.policy
    let question := call.question exchange.suffix
    let id := exchange.lastId + 1
    let events := ((exchange.carry call).run network s).events
    let waits := events.filterMap Event.armed?
    ∃ made ≤ policy.maxAttempts.toNat,
      waits = (List.range made).map policy.timeoutFor ∧
      (Duration.total waits).toNanos ≤ policy.totalWait.toNanos ∧
      (made = policy.maxAttempts.toNat → Duration.total waits = policy.totalWait) ∧
      (question.Encodable →
        fruitless (fun datagram => call.takes (question.bytes id) id datagram) exchange.response
          events → made = policy.maxAttempts.toNat) := by
  intro policy question id events waits
  obtain ⟨_, _, _, _, _, h, -, htakes⟩ := transacts_taking network s exchange call
  obtain ⟨made, hmade, hwaits⟩ := h.armed_eq
  have htotal : Duration.total waits = policy.waited made := by
    rw [← policy.total_timeoutFor, ← hwaits]
  refine ⟨made, hmade, hwaits, ?_, ?_, ?_⟩
  · rw [htotal, policy.totalWait_eq_waited]
    exact policy.monotone_waited hmade
  · rintro rfl
    rw [htotal, policy.totalWait_eq_waited]
  · intro hencodable hfruitless
    have hall := h.armed_of_fruitless hencodable htakes hfruitless
    have hlengths := congrArg List.length (hwaits.symm.trans hall)
    rwa [List.length_map, List.length_map, List.length_range, List.length_range] at hlengths

/-- Three attempts that all miss: a wait that runs out, two bytes that are no message, and an answer
under another id. -/
theorem waits_of_missed_attempts :
    let exchange : Exchange :=
      { socket := 0, server := .v4 ⟨192, 0, 2, 53⟩ 53, suffix := none,
        policy := { maxAttempts := 3 }, lastId := 6 }
    let tail : Bytes := [192, 12, 0, 1, 0, 1, 0, 0, 0, 60, 0, 4, 192, 0, 2, 7]
    let s : ScriptedNetwork :=
      { server := exchange.server,
        script := [.timeout, .raw [0, 7] none, .reply { idXor := 1, tail } none] }
    let call : Call := .address [97]
    let question := call.question exchange.suffix
    let events := ((exchange.carry call).run ScriptedNetwork.network s).events
    question.Encodable ∧
    fruitless (fun datagram => call.takes (question.bytes 7) 7 datagram) exchange.response events ∧
    events.filterMap Event.armed? = [.ofMillis 1000, .ofMillis 2000, .ofMillis 4000] ∧
    Duration.total (events.filterMap Event.armed?) = .ofMillis 7000 := by
  intro exchange tail s call question events
  have hencodable : question.Encodable := by decide +kernel
  have hfruitless : fruitless (fun datagram => call.takes (question.bytes 7) 7 datagram)
      exchange.response events := by
    decide +kernel
  obtain ⟨made, -, hwaits, -, hwhole, hall⟩ :=
    waits_within_total ScriptedNetwork.network s exchange call
  obtain rfl := hall hencodable hfruitless
  exact ⟨hencodable, hfruitless, hwaits.trans (by decide +kernel),
    (hwhole rfl).trans (by decide +kernel)⟩

end Exchange
end StubDns
