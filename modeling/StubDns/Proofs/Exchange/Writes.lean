import StubDns.Proofs.Exchange.History

/-! How often a lookup writes its query. -/
namespace StubDns

/-- The datagram of a write, whether or not it could be sent. -/
def Event.written? (event : Event) : Option Bytes :=
  match event.request with
  | .write _ datagram => some datagram
  | _ => none

/-- There is room for every query that can be written. -/
theorem Question.length_bytes_le {question : Question} (id : UInt16) (h : question.Encodable) :
    (question.bytes id).length ≤ queryCapacity := by
  have hwire := h.2
  have hcapacity : queryCapacity = 512 := rfl
  rw [length_bytes, length_asked, hcapacity]
  omega

namespace Exchange

variable {σ ω α : Type} {socket : Socket} {policy : RetryPolicy} {query : Bytes}
  {accept : Bytes → ω → Except Rejection α × ω} {left attempt : Nat}
  {response : Buffer responseCapacity} {lent : ω} {events : List Event}
  {concluded : Concluded ω α}

/-- Every attempt writes the query once, and the first one is made if any may be. -/
theorem Attempts.written_eq
    (h : Attempts socket policy query accept left attempt response lent events concluded) :
    ∃ n, min 1 left ≤ n ∧ n ≤ left ∧
      events.filterMap Event.written? = List.replicate n query := by
  induction h with
  | spent => exact ⟨0, Nat.le_refl _, Nat.le_refl _, rfl⟩
  | unsent | unarmed | unread | accepted => exact ⟨1, by omega, by omega, rfl⟩
  | timedOut _ _ _ _ ih | rejected _ _ _ _ _ _ ih =>
    obtain ⟨n, -, hn, hevents⟩ := ih
    refine ⟨n + 1, by omega, by omega, ?_⟩
    rw [List.filterMap_append, hevents]
    rfl

/-- A question that can be built is asked by attempts that all send its own query. -/
theorem Transacts.attempts_of_encodable {exchange : Exchange} {question : Question}
    {accept : (query : Bytes) → (id : UInt16) → Bytes → ω → Except Rejection α × ω}
    {result : Option α × ω × Exchange} (h : Transacts exchange question accept lent events result)
    (hencodable : question.Encodable) :
    ∃ concluded, Attempts exchange.socket exchange.policy (question.bytes (exchange.lastId + 1))
      (accept (question.bytes (exchange.lastId + 1)) (exchange.lastId + 1))
      exchange.policy.maxAttempts.toNat 0 exchange.response lent events concluded := by
  cases h with
  | unbuilt hbuild =>
    have hroom := Question.length_bytes_le (exchange.lastId + 1) hencodable
    rw [Question.build_ok_iff.mpr ⟨hencodable, hroom, rfl, rfl⟩] at hbuild
    cases hbuild
  | built hbuild hattempts =>
    rw [Question.take_of_build hbuild] at hattempts
    exact ⟨_, hattempts⟩

/-- A lookup whose question can be built writes its query at least once, and at most as often as its
policy allows. -/
theorem written_of_lookup (network : Network σ) (s : σ) (exchange : Exchange) (call : Call)
    (hencodable : (call.question exchange.suffix).Encodable)
    (hattempts : 1 ≤ exchange.policy.maxAttempts.toNat) :
    ∃ n, 1 ≤ n ∧ n ≤ exchange.policy.maxAttempts.toNat ∧
      ((exchange.carry call).run network s).events.filterMap Event.written? =
        List.replicate n ((call.question exchange.suffix).bytes (exchange.lastId + 1)) := by
  obtain ⟨_, _, _, _, result, h, -⟩ := transacts_carry network s exchange call
  obtain ⟨concluded, hall⟩ := h.attempts_of_encodable hencodable
  obtain ⟨n, hpos, hle, hwritten⟩ := hall.written_eq
  exact ⟨n, by omega, hle, hwritten⟩

end Exchange
end StubDns
