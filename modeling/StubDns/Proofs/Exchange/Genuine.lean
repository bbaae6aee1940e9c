import StubDns.Proofs.Answer
import StubDns.Proofs.Exchange.Attempts
import StubDns.Proofs.Name.Meaning
import StubDns.Script

/-! An answer comes out of a datagram that answers the query of that very lookup. -/
namespace StubDns.Exchange

variable {σ ω α : Type} {exchange : Exchange} {events : List Event}

/-- `query` went out on the exchange's socket, and nothing else did. -/
def Wrote (exchange : Exchange) (events : List Event) (query : Bytes) : Prop :=
  (∃ sent, ⟨.write exchange.socket query, .ok sent⟩ ∈ events) ∧
    ∀ event ∈ events, ∀ on written, event.request = .write on written →
      on = exchange.socket ∧ written = query

/-- `last` is the datagram of the read that ends `events`. -/
def LastDatagram (exchange : Exchange) (events : List Event) (last : Bytes) : Prop :=
  ∃ earlier reply size,
    events = earlier ++ [⟨.read exchange.socket responseCapacity, reply⟩] ∧
      reply.result = .ok size ∧
        last = (received exchange.response events).bytes.take (min size 512)

/-- `query` was all that went out, and `last` came in last and is an echo of it under the next id. -/
structure AnsweredBy (exchange : Exchange) (events : List Event) (query last : Bytes) : Prop where
  wrote : Wrote exchange events query
  read : LastDatagram exchange events last
  echoes : Response.Echoes query last (exchange.lastId + 1)

/-- What a lookup that found something has sent and has accepted last. -/
theorem accepted_of_transacts {question : Question}
    {accept : (query : Bytes) → (id : UInt16) → Bytes → ω → Except Rejection α × ω} {lent : ω}
    {result : Option α × ω × Exchange} {value : α}
    (h : Transacts exchange question accept lent events result) (hvalue : result.1 = some value) :
    question.Encodable ∧ Wrote exchange events (question.bytes (exchange.lastId + 1)) ∧
      ∃ last before, LastDatagram exchange events last ∧
        accept (question.bytes (exchange.lastId + 1)) (exchange.lastId + 1) last before =
          (.ok value, result.2.1) := by
  have hwrites (event : Event) (hevent : event ∈ events) (on : Socket) (written : Bytes)
      (hwrite : event.request = .write on written) := h.query_of_write hevent hwrite
  cases h with
  | unbuilt => cases hvalue
  | built hbuild hattempts =>
    rw [Question.take_of_build hbuild] at hattempts
    obtain ⟨earlier, number, sent, data, size, before, hevents, haccept⟩ :=
      hattempts.accept_of_answer hvalue
    have hlast : events = (earlier ++ [
        ⟨.write exchange.socket (question.bytes (exchange.lastId + 1)), .ok sent⟩,
        ⟨.setTimeout exchange.socket (exchange.policy.timeoutFor number), .ok ()⟩]) ++
          [⟨.read exchange.socket responseCapacity, ⟨data, .ok size⟩⟩] := by
      rw [hevents, List.append_assoc]
      rfl
    refine ⟨(Question.build_ok_iff.mp hbuild).1, ⟨⟨sent, ?_⟩, hwrites⟩, _, before,
      ⟨_, ⟨data, .ok size⟩, size, hlast, rfl, ?_⟩, haccept⟩
    · rw [hevents]
      exact List.mem_append_right _ List.mem_cons_self
    · rw [← hattempts.response_eq]
      rfl

/-- A lookup answers only from the last datagram it read, and only if that carries the lookup's own
id and repeats its whole question. The answer is the address in the first address record, or the
name at the first pointer record. -/
theorem lookup_answer_genuine (network : Network σ) (s : σ) (exchange : Exchange) :
    (∀ hostname address, let lookup := (exchange.lookupAddress hostname).run network s
      lookup.value.1 = some address →
        ∃ query last, AnsweredBy exchange lookup.events query last ∧
          ∃ wire place, Response.FirstAnswer WireRecord.IsAddress query last (exchange.lastId + 1)
            wire place ∧ wire.data = address.octets) ∧
    (∀ target capacity (out : Buffer capacity) size,
      let lookup := (exchange.lookupName target out).run network s
      lookup.value.1 = some size →
        ∃ query last, AnsweredBy exchange lookup.events query last ∧
          ∃ wire place, Response.FirstAnswer WireRecord.IsPointer query last (exchange.lastId + 1)
            wire place ∧ ∀ other : Buffer capacity,
              (Name.copy last (wire.dataStart place) other).1 = .ok size ∧
              (Name.copy last (wire.dataStart place) other).2.bytes.take size =
                lookup.value.2.1.bytes.take size) := by
  constructor
  · intro hostname address lookup hanswer
    rw [show lookup = _ from run_lookupAddress network s exchange hostname] at hanswer ⊢
    obtain ⟨hencodable, hwrote, last, before, hlast, haccept⟩ :=
      accepted_of_transacts (transact_run network s exchange _ _ ()) hanswer
    obtain ⟨hechoes, hfirst⟩ :=
      (Response.address_ok_iff hencodable).mp (congrArg Prod.fst haccept)
    exact ⟨_, last, ⟨hwrote, hlast, hechoes⟩, hfirst⟩
  · intro target capacity out size lookup hanswer
    obtain ⟨hencodable, hwrote, last, before, hlast, haccept⟩ :=
      accepted_of_transacts (transact_run network s exchange (.name target) _ out) hanswer
    obtain ⟨hechoes, wire, place, hfirst, hcopy⟩ := Response.echoes_of_name_ok hencodable haccept
    exact ⟨_, last, ⟨hwrote, hlast, hechoes⟩, wire, place, hfirst, Name.copy_other hcopy⟩

/-- A lookup of either kind whose first wait runs out. -/
theorem lookup_answer_after_timeout :
    let exchange : Exchange :=
      { socket := 0, server := .v4 ⟨192, 0, 2, 53⟩ 53, suffix := none, policy := {}, lastId := 6 }
    let addressNetwork : ScriptedNetwork := { server := exchange.server, script := [.timeout,
      .reply { tail := [192, 12, 0, 1, 0, 1, 0, 0, 0, 60, 0, 4, 192, 0, 2, 7] } none] }
    let nameNetwork : ScriptedNetwork := { server := exchange.server, script := [.timeout,
      .reply { tail := [192, 12, 0, 12, 0, 1, 0, 0, 0, 60, 0, 3, 1, 98, 0] } none] }
    let addressLookup := (exchange.lookupAddress [97]).run ScriptedNetwork.network addressNetwork
    let nameLookup := (exchange.lookupName ⟨192, 0, 2, 7⟩ (Buffer.zero 256)).run
      ScriptedNetwork.network nameNetwork
    (addressLookup.value.1 = some ⟨192, 0, 2, 7⟩ ∧
      ∃ query last, AnsweredBy exchange addressLookup.events query last ∧
        ∃ wire place, Response.FirstAnswer WireRecord.IsAddress query last 7 wire place ∧
          wire.data = [192, 0, 2, 7]) ∧
    (nameLookup.value.1 = some 1 ∧
      ∃ query last, AnsweredBy exchange nameLookup.events query last ∧
        ∃ wire place, Response.FirstAnswer WireRecord.IsPointer query last 7 wire place ∧
          ∀ other : Buffer 256, (Name.copy last (wire.dataStart place) other).1 = .ok 1 ∧
            (Name.copy last (wire.dataStart place) other).2.bytes.take 1 =
              nameLookup.value.2.1.bytes.take 1) := by
  dsimp only
  constructor
  · refine ⟨by decide +kernel, ?_⟩
    exact (lookup_answer_genuine ScriptedNetwork.network _ _).1 [97] ⟨192, 0, 2, 7⟩
      (by decide +kernel)
  · refine ⟨by decide +kernel, ?_⟩
    exact (lookup_answer_genuine ScriptedNetwork.network _ _).2 ⟨192, 0, 2, 7⟩ 256 (Buffer.zero 256)
      1 (by decide +kernel)

end StubDns.Exchange
