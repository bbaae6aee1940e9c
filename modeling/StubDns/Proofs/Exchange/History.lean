import StubDns.Exchange
import StubDns.Proofs.Answer
import StubDns.Proofs.Exchange.Attempts
import StubDns.Script

/-! Runs of lookups over one exchange: their ids, and which of them one datagram can answer. -/
namespace StubDns.Exchange

variable {σ : Type} {network : Network σ} {s : σ} {exchange : Exchange} {first : UInt16}

/-- A lookup with the buffer that the caller lends it, which may hold anything. -/
inductive Call
  | address (hostname : Bytes)
  | name (target : IPv4) {capacity : Nat} (out : Buffer capacity)

def Call.question (suffix : Option Bytes) : Call → Question
  | .address hostname => .address hostname suffix
  | .name target _ => .name target

/-- Whether the call takes `datagram` for the answer to `query`. -/
def Call.takes (query : Bytes) (id : UInt16) (datagram : Bytes) : Call → Bool
  | .address _ => (Response.address query datagram id).isOk
  | .name _ out => (Response.name query datagram id out).1.isOk

def Call.ofStep : Step → Call
  | .address hostname => .address hostname
  | .name target capacity => .name target (Buffer.zero capacity)

def carry (exchange : Exchange) : Call → Dialogue (Answer × Exchange)
  | .address hostname => do
    let (result, exchange) ← exchange.lookupAddress hostname
    return (.address result, exchange)
  | .name target out => do
    let (result, out, exchange) ← exchange.lookupName target out
    return (.name result out.bytes, exchange)

theorem carry_ofStep (exchange : Exchange) (step : Step) :
    exchange.carry (.ofStep step) = exchange.perform step := by
  cases step <;> rfl

/-- One lookup of a run: the exchange as it was found, and everything that happened. -/
structure Lookup (σ : Type) where
  found : Exchange
  call : Call
  done : Finished σ (Answer × Exchange)

namespace Lookup

def id (lookup : Lookup σ) : UInt16 := lookup.found.lastId + 1

def question (lookup : Lookup σ) : Question := lookup.call.question lookup.found.suffix

/-- `query` is what the lookup built to be sent. -/
def Built (lookup : Lookup σ) (query : Bytes) : Prop :=
  ∃ size filled, lookup.question.build lookup.id lookup.found.query = (.ok size, filled) ∧
    query = filled.bytes.take size

/-- The lookup built `query`, and `datagram` passes for an answer to it. -/
def Accepts (lookup : Lookup σ) (query datagram : Bytes) : Prop :=
  lookup.Built query ∧ ∃ passed, Response.answers query datagram lookup.id = .ok passed

end Lookup

/-- The lookups of a run in their order, each over the exchange that the one before it left. -/
def history (network : Network σ) (exchange : Exchange) (s : σ) : List Call → List (Lookup σ)
  | [] => []
  | call :: calls =>
    let done := (exchange.carry call).run network s
    ⟨exchange, call, done⟩ :: history network done.value.2 done.network calls

theorem map_call_history (calls : List Call) :
    (history network exchange s calls).map Lookup.call = calls := by
  induction calls generalizing exchange s with
  | nil => rfl
  | cons call calls ih => rw [history, List.map_cons, ih]

/-- Nothing happens in a run but what happens in its lookups. -/
theorem run_performAll (steps : List Step) :
    ((exchange.performAll steps).run network s).value.1 =
        (history network exchange s (steps.map .ofStep)).map (·.done.value.1) ∧
      ((exchange.performAll steps).run network s).events =
        (history network exchange s (steps.map .ofStep)).flatMap (·.done.events) := by
  induction steps generalizing exchange s with
  | nil => exact ⟨rfl, rfl⟩
  | cons step steps ih =>
    simp only [performAll, Dialogue.run_bind, List.map_cons, history, carry_ofStep,
      List.flatMap_cons, Pure.pure, Dialogue.run, List.append_nil]
    rw [(ih).1, (ih).2]
    exact ⟨rfl, rfl⟩

/-- A lookup of either kind is a transaction that accepts the datagrams which the call takes. -/
theorem transacts_taking (network : Network σ) (s : σ) (exchange : Exchange) (call : Call) :
    ∃ (ω α : Type) (accept : Bytes → UInt16 → Bytes → ω → Except Rejection α × ω) (lent : ω)
      (result : Option α × ω × Exchange),
      Transacts exchange (call.question exchange.suffix) accept lent
        ((exchange.carry call).run network s).events result ∧
        result.2.2 = ((exchange.carry call).run network s).value.2 ∧
        ∀ query id datagram lent,
          (accept query id datagram lent).1.isOk = call.takes query id datagram := by
  cases call with
  | address hostname =>
    have h := transact_run network s exchange (.address hostname exchange.suffix)
      (fun query id datagram (lent : Unit) => (Response.address query datagram id, lent)) ()
    simp only [carry, Dialogue.run_bind, run_lookupAddress, Pure.pure, Dialogue.run,
      List.append_nil]
    exact ⟨_, _, _, _, _, h, rfl, fun _ _ _ _ => rfl⟩
  | name target out =>
    have h := transact_run network s exchange (.name target)
      (fun query id datagram out => Response.name query datagram id out) out
    simp only [carry, Dialogue.run_bind, Pure.pure, Dialogue.run, List.append_nil]
    refine ⟨_, _, _, _, _, h, rfl, ?_⟩
    intro query id datagram lent
    exact congrArg Except.isOk (Response.result_name query datagram id lent out)

theorem transacts_carry (network : Network σ) (s : σ) (exchange : Exchange) (call : Call) :
    ∃ (ω α : Type) (accept : Bytes → UInt16 → Bytes → ω → Except Rejection α × ω) (lent : ω)
      (result : Option α × ω × Exchange),
      Transacts exchange (call.question exchange.suffix) accept lent
        ((exchange.carry call).run network s).events result ∧
        result.2.2 = ((exchange.carry call).run network s).value.2 := by
  obtain ⟨ω, α, accept, lent, result, h, hresult, -⟩ := transacts_taking network s exchange call
  exact ⟨ω, α, accept, lent, result, h, hresult⟩

/-- What one lookup of any kind keeps to: the counter goes on by one, and only the call's own query
is written. -/
theorem run_carry (call : Call) :
    ((exchange.carry call).run network s).value.2.lastId = exchange.lastId + 1 ∧
      ∀ event ∈ ((exchange.carry call).run network s).events, ∀ on written,
        event.request = .write on written →
          written = (call.question exchange.suffix).bytes (exchange.lastId + 1) := by
  obtain ⟨ω, α, accept, lent, result, h, hresult⟩ := transacts_carry network s exchange call
  rw [← hresult]
  exact ⟨h.lastId_eq, fun event hevent on written hwrite => (h.query_of_write hevent hwrite).2⟩

/-- A lookup asks only its own association, and leaves its terms as they are. -/
theorem run_carry_sameTerms (network : Network σ) (s : σ) (exchange : Exchange) (call : Call) :
    (∀ event ∈ ((exchange.carry call).run network s).events,
      event.socket? = some exchange.socket) ∧
    ((exchange.carry call).run network s).value.2.SameTerms exchange := by
  obtain ⟨ω, α, accept, lent, result, h, hresult⟩ := transacts_carry network s exchange call
  rw [← hresult]
  exact ⟨fun event hevent => h.socket?_of_mem hevent, h.sameTerms⟩

/-- Every lookup of a run is one call carried out, and the counter has gone on by one for each of
those before it. -/
theorem lookup_of_history {calls : List Call} {i : Nat} {lookup : Lookup σ}
    (h : (history network exchange s calls)[i]? = some lookup) :
    (∃ t, lookup.done = (lookup.found.carry lookup.call).run network t) ∧
      lookup.id.toNat = ((exchange.lastId + 1).toNat + i) % 65536 := by
  induction calls generalizing exchange s i with
  | nil => cases h
  | cons call calls ih =>
    cases i with
    | zero =>
      obtain rfl := Option.some.inj h
      exact ⟨⟨s, rfl⟩, (Nat.mod_eq_of_lt (exchange.lastId + 1).toNat_lt).symm⟩
    | succ i =>
      obtain ⟨hdone, hid⟩ := ih h
      refine ⟨hdone, ?_⟩
      rw [hid, (run_carry call).1, UInt16.toNat_add (exchange.lastId + 1) 1]
      have : (1 : UInt16).toNat = 1 := rfl
      omega

namespace Lookup
variable {a b : Lookup σ} {query query' datagram : Bytes}

theorem built_iff : a.Built query ↔
    a.question.Encodable ∧ (a.question.bytes a.id).length ≤ queryCapacity ∧
      query = a.question.bytes a.id := by
  constructor
  · rintro ⟨size, filled, hbuild, rfl⟩
    obtain ⟨hencodable, hroom, _⟩ := Question.build_ok_iff.mp hbuild
    exact ⟨hencodable, hroom, Question.take_of_build hbuild⟩
  · rintro ⟨hencodable, hroom, rfl⟩
    have hbuild : a.question.build a.id a.found.query = (.ok (a.question.bytes a.id).length, _) :=
      Question.build_ok_iff.mpr ⟨hencodable, hroom, rfl, rfl⟩
    exact ⟨_, _, hbuild, (Question.take_of_build hbuild).symm⟩

/-- What is accepted has the lookup's id in front and its question behind the header. -/
theorem Accepts.holdsAt (h : a.Accepts query datagram) :
    datagram.HoldsAt 0 (Bytes.ofUInt16 a.id) ∧ datagram.HoldsAt 12 a.question.asked := by
  obtain ⟨hbuilt, ⟨header, cursor⟩, hpassed⟩ := h
  obtain ⟨hencodable, _, rfl⟩ := built_iff.mp hbuilt
  obtain ⟨hreplies, hheader, hasked, _⟩ := (Response.answers_bytes_iff hencodable).mp hpassed
  rw [Header.bytes, hreplies.id_eq] at hheader
  exact ⟨(Bytes.holdsAt_append.mp hheader).1, hasked⟩

/-- Two questions that stand at the same place of a datagram are one, as neither is the start of the
other. -/
theorem Accepts.same (h : a.Accepts query datagram) (h' : b.Accepts query' datagram) :
    a.id = b.id ∧ a.question.asked = b.question.asked := by
  obtain ⟨hid, hasked⟩ := h.holdsAt
  obtain ⟨hid', hasked'⟩ := h'.holdsAt
  obtain ⟨after, hafter⟩ := hasked.drop_eq
  obtain ⟨after', hafter'⟩ := hasked'.drop_eq
  have hquestion := Question.isQuestion_asked (built_iff.mp h.1).1
  have hquestion' := Question.isQuestion_asked (built_iff.mp h'.1).1
  exact ⟨Bytes.ofUInt16_injective (hid.unique hid' rfl),
    hquestion.prefix_free hquestion' (hafter.symm.trans hafter')⟩

end Lookup

/-- Lookup `i` of a run uses the id `first + i`, around the counter's range. A datagram that passes
for an answer to two lookups of a run finds them a multiple of that range apart, and their queries
equal. -/
theorem datagram_answers_one_question (network : Network σ) (s : σ) (exchange : Exchange)
    (first : UInt16) (calls : List Call) :
    let run := history network (exchange.withNextId first) s calls
    run.map Lookup.call = calls ∧
    (∀ (i : Nat) (lookup : Lookup σ), run[i]? = some lookup →
      lookup.id.toNat = (first.toNat + i) % 65536 ∧
        ∀ event ∈ lookup.done.events, ∀ on written, event.request = .write on written →
          written.take 2 = Bytes.ofUInt16 lookup.id) ∧
    (∀ (i j : Nat) (a b : Lookup σ) (query query' datagram : Bytes), i < j →
      run[i]? = some a → run[j]? = some b → a.Accepts query datagram →
      b.Accepts query' datagram →
        65536 ∣ j - i ∧ query = query' ∧ a.question.recordType = b.question.recordType ∧
          Name.wire a.question.names = Name.wire b.question.names) := by
  have hnext : (exchange.withNextId first).lastId + 1 = first := UInt16.sub_add_cancel first 1
  intro run
  refine ⟨map_call_history calls, ?_, ?_⟩
  · intro i lookup hlookup
    obtain ⟨⟨t, hdone⟩, hid⟩ := lookup_of_history hlookup
    rw [hnext] at hid
    refine ⟨hid, ?_⟩
    intro event hevent on written hwrite
    rw [hdone] at hevent
    rw [(run_carry lookup.call).2 event hevent on written hwrite]
    rfl
  · intro i j a b query query' datagram hlt ha hb haccepts haccepts'
    obtain ⟨hid, hasked⟩ := haccepts.same haccepts'
    have hidA := (lookup_of_history ha).2
    have hidB := (lookup_of_history hb).2
    rw [hnext] at hidA hidB
    rw [hid] at hidA
    refine ⟨by omega, ?_, Question.of_asked_eq hasked⟩
    obtain ⟨_, _, rfl⟩ := Lookup.built_iff.mp haccepts.1
    obtain ⟨_, _, rfl⟩ := Lookup.built_iff.mp haccepts'.1
    rw [hid, Question.bytes, hasked, Question.bytes]

/-- The same call a whole range later has the same id again, and is answered by the same datagram. -/
theorem datagram_answers_after_range :
    let exchange : Exchange :=
      { socket := 0, server := .v4 ⟨192, 0, 2, 53⟩ 53, suffix := none, policy := {}, lastId := 0 }
    let run := history ScriptedNetwork.network (exchange.withNextId 7) { server := exchange.server }
      (List.replicate 65537 (.name ⟨192, 0, 2, 1⟩ (Buffer.zero 256)))
    ∃ a b query datagram, run[0]? = some a ∧ run[65536]? = some b ∧ a.Accepts query datagram ∧
      b.Accepts query datagram ∧ 65536 ∣ 65536 - 0 ∧ query = query ∧
        a.question.recordType = b.question.recordType ∧
          Name.wire a.question.names = Name.wire b.question.names := by
  intro exchange run
  obtain ⟨hcalls, hids, hpair⟩ := datagram_answers_one_question ScriptedNetwork.network
    { server := exchange.server } exchange 7
    (List.replicate 65537 (.name ⟨192, 0, 2, 1⟩ (Buffer.zero 256)))
  have hat (k : Nat) (hk : k < 65537) : ∃ lookup, run[k]? = some lookup ∧
      lookup.question = .name ⟨192, 0, 2, 1⟩ := by
    have hcall := congrArg (·[k]?) hcalls
    simp only [List.getElem?_map, List.getElem?_replicate, if_pos hk] at hcall
    obtain ⟨lookup, hlookup, hcall⟩ := Option.map_eq_some_iff.mp hcall
    exact ⟨lookup, hlookup, by rw [Lookup.question, hcall]; rfl⟩
  obtain ⟨a, ha, hquestion⟩ := hat 0 (by decide)
  obtain ⟨b, hb, hquestion'⟩ := hat 65536 (by decide)
  have hid : a.id = 7 := UInt16.toNat_inj.mp (hids 0 a ha).1
  have hid' : b.id = 7 := UInt16.toNat_inj.mp (hids 65536 b hb).1
  have hencodable : (Question.name ⟨192, 0, 2, 1⟩).Encodable := by
    unfold Question.Encodable Name.ValidLabels
    decide +kernel
  obtain ⟨reply, hreplies⟩ : ∃ reply : Header, reply.Replies 7 :=
    ⟨{ id := 7, flags := 0x8180, qdcount := 1, ancount := 1 }, rfl, by decide, rfl, by decide⟩
  have haccepts (lookup : Lookup ScriptedNetwork) (hid : lookup.id = 7)
      (hquestion : lookup.question = .name ⟨192, 0, 2, 1⟩) :
      lookup.Accepts ((Question.name ⟨192, 0, 2, 1⟩).bytes 7)
        (reply.bytes ++ (Question.name ⟨192, 0, 2, 1⟩).asked) := by
    refine ⟨Lookup.built_iff.mpr ?_, ?_⟩
    · rw [hid, hquestion]
      exact ⟨hencodable, by decide +kernel, rfl⟩
    · rw [hid]
      exact ⟨(reply, _), (Response.answers_bytes_iff hencodable).mpr ⟨hreplies, by rfl, by rfl, rfl⟩⟩
  have hacceptsA := haccepts a hid hquestion
  have hacceptsB := haccepts b hid' hquestion'
  exact ⟨a, b, _, _, ha, hb, hacceptsA, hacceptsB,
    hpair 0 65536 a b _ _ _ (by decide) ha hb hacceptsA hacceptsB⟩

end StubDns.Exchange
