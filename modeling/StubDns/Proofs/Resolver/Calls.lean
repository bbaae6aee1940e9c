import StubDns.Proofs.Exchange.History
import StubDns.Resolver

/-! Everything that one call of a resolver can do, and runs of calls. -/
namespace StubDns

/-- The exchange over an association that is opened with the settings of this moment. -/
def ConfigSource.exchange (source : ConfigSource) (server : Endpoint) (socket : Socket)
    (lastId : UInt16) : Exchange where
  socket := socket
  server := server
  suffix := source.searchSuffix.map fun text => Utf8.encode text.toList
  policy := source.retryPolicy
  lastId := lastId

namespace Resolver
variable {σ : Type} {network : Network σ} {s : σ} {resolver : Resolver}

/-- A call with the buffer that the caller lends it, which may hold anything. -/
inductive Call
  | configure (settings : Option Settings)
  | lookupAddress (hostname : Bytes) (family : AddressFamily)
  | lookupName (address : IPAddress) {capacity : Nat} (out : Buffer capacity)
  | lookupHostname (address : IPAddress)
  | hostByAddress (address : IPv4) (scopeId : UInt32)

namespace Call

def ofStep : Step → Call
  | .configure settings => .configure settings
  | .lookupAddress hostname family => .lookupAddress hostname family
  | .lookupName address capacity => .lookupName address (Buffer.zero capacity)
  | .lookupHostname address => .lookupHostname address
  | .hostByAddress address scopeId => .hostByAddress address scopeId

/-- The lookup that a call comes to when its arguments pass. -/
def lookup? : Call → Option Exchange.Call
  | .lookupAddress hostname .inet => some (.address hostname)
  | @lookupName (.v4 target) capacity out =>
    if capacity < Name.sizeMax then none else some (.name target out)
  | .lookupHostname (.v4 target) => some (.name target (Buffer.zero Name.sizeMax))
  | _ => none

/-- Why the arguments of a lookup do not pass. -/
def refusal : Call → ResolveError
  | @lookupName _ capacity _ =>
    if capacity < Name.sizeMax then .bufferTooSmall capacity Name.sizeMax else .unsupportedFamily
  | _ => .unsupportedFamily

/-- What a lookup gives back that fails. -/
def failed (reason : ResolveError) : Call → Answer
  | .lookupAddress _ _ => .host (.error reason)
  | .lookupName _ out => .name (.error reason) out.bytes
  | .lookupHostname _ => .hostname (.error reason)
  | _ => .configured

/-- What a call does that comes to no lookup. -/
def settle (resolver : Resolver) : Call → Answer × Resolver
  | .configure settings =>
    (.configured, { resolver with source := resolver.source.replace settings })
  | .hostByAddress address scopeId =>
    let (object, resolver) := resolver.hostByAddress address scopeId
    (.host (.ok (some object)), resolver)
  | call => (call.failed call.refusal, resolver)

/-- What a call makes of the answer to its lookup. An address becomes the registry's object for it
on any interface. -/
def receive (call : Call) (registry : Registry) : Exchange.Answer → Answer × Registry
  | .address none => (.host (.ok none), registry)
  | .address (some address) =>
    let (object, registry) := registry.hostByAddress address Registry.anyScope
    (.host (.ok (some object)), registry)
  | .name result out =>
    match call with
    | .lookupHostname _ =>
      let name (size : Nat) := String.ofList (Utf8.decodeLossy (out.take size))
      (.hostname (.ok (result.map name)), registry)
    | _ => (.name (.ok result) out, registry)

/-- The answer, and the resolver with the exchange that served it. -/
def conclude (call : Call) (resolver : Resolver) (served : Exchange.Answer × Exchange) :
    Answer × Resolver :=
  let (answer, registry) := call.receive resolver.registry served.1
  (answer, { resolver with registry, session := some served.2 })

/-- The settings after a call. -/
def configures (source : ConfigSource) : Call → ConfigSource
  | .configure settings => source.replace settings
  | _ => source

end Call

/-- A call is a step of a run but for the lent buffer, which a step leaves empty. -/
def carry (resolver : Resolver) : Call → Dialogue (Answer × Resolver)
  | .lookupName address out => do
    let (result, out, resolver) ← resolver.lookupName address out
    return (.name result out.bytes, resolver)
  | .configure settings => resolver.perform (.configure settings)
  | .lookupAddress hostname family => resolver.perform (.lookupAddress hostname family)
  | .lookupHostname address => resolver.perform (.lookupHostname address)
  | .hostByAddress address scopeId => resolver.perform (.hostByAddress address scopeId)

theorem carry_ofStep (resolver : Resolver) (step : Step) :
    resolver.carry (.ofStep step) = resolver.perform step := by
  cases step <;> rfl

section
variable {call : Call} {lookup : Exchange.Call} {α : Type}

theorem run_carry_idle (h : call.lookup? = none) :
    (resolver.carry call).run network s = ⟨call.settle resolver, [], s⟩ := by
  cases call with
  | configure settings => rfl
  | hostByAddress address scopeId => rfl
  | lookupAddress hostname family =>
    cases family with
    | inet => cases h
    | inet6 | unspec => rfl
  | @lookupName address capacity out =>
    by_cases hcapacity : capacity < Name.sizeMax
    · simp only [carry, lookupName, if_pos hcapacity, Call.settle, Call.failed, Call.refusal]
      rfl
    · cases address with
      | v4 target =>
        rw [Call.lookup?, if_neg hcapacity] at h
        cases h
      | v6 target =>
        simp only [carry, lookupName, if_neg hcapacity, Call.settle, Call.failed, Call.refusal]
        rfl
  | lookupHostname address =>
    cases address with
    | v4 target => cases h
    | v6 target => rfl

/-- What becomes of a lookup hangs on whether there is an exchange to serve it. -/
theorem run_withExchange (resolver : Resolver) (ask : Exchange → Dialogue (α × Exchange)) :
    (resolver.withExchange ask).run network s =
      let ready := (setUp resolver.source resolver.session).run network s
      match ready.value with
      | .error reason => ⟨(.error reason, { resolver with session := none }), ready.events,
          ready.network⟩
      | .ok exchange =>
        let done := (ask exchange).run network ready.network
        ⟨(.ok done.value.1, { resolver with session := some done.value.2 }),
          ready.events ++ done.events, done.network⟩ := by
  rw [withExchange, Dialogue.run_bind]
  cases hready : ((setUp resolver.source resolver.session).run network s).value with
  | error reason => simp [hready, Dialogue.run, Pure.pure]
  | ok exchange => simp [hready, Dialogue.run, Pure.pure, Dialogue.run_bind]

/-- The name of an address is looked up over the exchange that serves it, into what was lent. -/
theorem run_lookupName {capacity : Nat} {target : IPv4} {out : Buffer capacity}
    (hcapacity : ¬ capacity < Name.sizeMax) :
    (resolver.lookupName (.v4 target) out).run network s =
      let ready := (setUp resolver.source resolver.session).run network s
      match ready.value with
      | .error reason => ⟨(.error reason, out, { resolver with session := none }), ready.events,
          ready.network⟩
      | .ok exchange =>
        let done := (exchange.lookupName target out).run network ready.network
        ⟨(.ok done.value.1, done.value.2.1, { resolver with session := some done.value.2.2 }),
          ready.events ++ done.events, done.network⟩ := by
  simp only [lookupName, if_neg hcapacity, Dialogue.run_bind, run_withExchange]
  cases hready : ((setUp resolver.source resolver.session).run network s).value with
  | error reason => simp [Dialogue.run, Pure.pure]
  | ok exchange => simp [Dialogue.run, Pure.pure]

theorem run_carry_lookup (h : call.lookup? = some lookup) :
    (resolver.carry call).run network s =
      let ready := (setUp resolver.source resolver.session).run network s
      match ready.value with
      | .error reason => ⟨(call.failed reason, { resolver with session := none }), ready.events,
          ready.network⟩
      | .ok exchange =>
        let done := (exchange.carry lookup).run network ready.network
        ⟨call.conclude resolver done.value, ready.events ++ done.events, done.network⟩ := by
  cases call with
  | configure settings => cases h
  | hostByAddress address scopeId => cases h
  | lookupAddress hostname family =>
    cases family with
    | inet6 | unspec => cases h
    | inet =>
    obtain rfl := Option.some.inj h
    simp only [carry, perform, Resolver.lookupAddress, ne_eq, not_true_eq_false, if_false,
      Dialogue.run_bind, run_withExchange]
    cases hready : ((setUp resolver.source resolver.session).run network s).value with
    | error reason => simp [Call.failed, Dialogue.run, Pure.pure]
    | ok exchange =>
      simp only [Call.conclude, Exchange.carry, Dialogue.run_bind, Dialogue.run, Pure.pure,
        List.append_nil]
      cases hanswer : ((exchange.lookupAddress hostname).run network
          ((setUp resolver.source resolver.session).run network s).network).value.1 with
      | none => simp [Call.receive, Dialogue.run]
      | some address => simp [Call.receive, Dialogue.run, hostByAddress]
  | @lookupName address capacity out =>
    cases address with
    | v6 target => cases h
    | v4 target =>
    rw [Call.lookup?] at h
    split at h
    case isTrue => cases h
    case isFalse hcapacity =>
    obtain rfl := Option.some.inj h
    simp only [carry, Dialogue.run_bind, run_lookupName hcapacity]
    cases hready : ((setUp resolver.source resolver.session).run network s).value with
    | error reason => simp [Call.failed, Dialogue.run, Pure.pure]
    | ok exchange =>
      simp [Call.conclude, Call.receive, Exchange.carry, Dialogue.run_bind, Dialogue.run, Pure.pure]
  | lookupHostname address =>
    cases address with
    | v6 target => cases h
    | v4 target =>
    obtain rfl := Option.some.inj h
    simp only [carry, perform, lookupHostname, Dialogue.run_bind,
      run_lookupName (Nat.lt_irrefl Name.sizeMax)]
    cases hready : ((setUp resolver.source resolver.session).run network s).value with
    | error reason => simp [Call.failed, Dialogue.run, Pure.pure, Except.map]
    | ok exchange =>
      simp [Call.conclude, Call.receive, Exchange.carry, Dialogue.run_bind, Dialogue.run, Pure.pure,
        Except.map]

end

section
variable {source : ConfigSource} {server : Endpoint} {t u : σ}

theorem run_setUp_refused {reason : ResolveError} (hserver : source.nameServer = some server)
    (hconnect : network.respond (.connect server) s = (.error reason, t)) :
    (setUp source none).run network s =
      ⟨.error reason, [⟨.connect server, .error reason⟩], t⟩ := by
  simp only [setUp, hserver]
  rw [Dialogue.run_request_bind, hconnect]
  rfl

theorem run_setUp_opened {socket : Socket} {lastId : UInt16}
    (hserver : source.nameServer = some server)
    (hconnect : network.respond (.connect server) s = (.ok socket, t))
    (hdraw : network.respond .drawId t = (lastId, u)) :
    (setUp source none).run network s =
      ⟨.ok (source.exchange server socket lastId),
        [⟨.connect server, .ok socket⟩, ⟨.drawId, lastId⟩], u⟩ := by
  simp only [setUp, hserver]
  rw [Dialogue.run_request_bind, hconnect]
  dsimp only
  rw [Dialogue.run_request_bind, hdraw]
  rfl

end

/-- Everything that a call can come to, from the resolver and the network that it finds. -/
inductive Performs (network : Network σ) (resolver : Resolver) (s : σ) (call : Call) :
    Finished σ (Answer × Resolver) → Prop
  | idle : call.lookup? = none → Performs network resolver s call ⟨call.settle resolver, [], s⟩
  | unconfigured {lookup : Exchange.Call} :
      call.lookup? = some lookup → resolver.source.nameServer = none → resolver.session = none →
      Performs network resolver s call
        ⟨(call.failed .notConfigured, { resolver with session := none }), [], s⟩
  | withdrawn {lookup : Exchange.Call} {exchange : Exchange} :
      call.lookup? = some lookup → resolver.source.nameServer = none →
      resolver.session = some exchange →
      Performs network resolver s call
        ⟨(call.failed .notConfigured, { resolver with session := none }),
          [⟨.close exchange.socket, ()⟩], (network.respond (.close exchange.socket) s).2⟩
  | refused {lookup : Exchange.Call} {server : Endpoint} {reason : ResolveError} {t : σ} :
      call.lookup? = some lookup → resolver.source.nameServer = some server →
      resolver.session = none → network.respond (.connect server) s = (.error reason, t) →
      Performs network resolver s call
        ⟨(call.failed reason, { resolver with session := none }),
          [⟨.connect server, .error reason⟩], t⟩
  | opened {lookup : Exchange.Call} {server : Endpoint} {socket : Socket} {lastId : UInt16}
      {t u : σ} {done : Finished σ (Exchange.Answer × Exchange)} :
      call.lookup? = some lookup → resolver.source.nameServer = some server →
      resolver.session = none → network.respond (.connect server) s = (.ok socket, t) →
      network.respond .drawId t = (lastId, u) →
      done = ((resolver.source.exchange server socket lastId).carry lookup).run network u →
      Performs network resolver s call
        ⟨call.conclude resolver done.value,
          ⟨.connect server, .ok socket⟩ :: ⟨.drawId, lastId⟩ :: done.events, done.network⟩
  | served {lookup : Exchange.Call} {server : Endpoint} {exchange : Exchange}
      {done : Finished σ (Exchange.Answer × Exchange)} :
      call.lookup? = some lookup → resolver.source.nameServer = some server →
      resolver.session = some exchange → done = (exchange.carry lookup).run network s →
      Performs network resolver s call
        ⟨call.conclude resolver done.value, done.events, done.network⟩

theorem performs_carry (network : Network σ) (resolver : Resolver) (s : σ) (call : Call) :
    Performs network resolver s call ((resolver.carry call).run network s) := by
  cases hlookup : call.lookup? with
  | none =>
    rw [run_carry_idle hlookup]
    exact .idle hlookup
  | some lookup =>
    rw [run_carry_lookup hlookup]
    cases hserver : resolver.source.nameServer with
    | none =>
      cases hsession : resolver.session with
      | none =>
        simp only [setUp, hserver]
        exact .unconfigured hlookup hserver hsession
      | some exchange =>
        simp only [setUp, hserver]
        exact .withdrawn hlookup hserver hsession
    | some server =>
      cases hsession : resolver.session with
      | some exchange =>
        simp only [setUp, hserver]
        exact .served hlookup hserver hsession rfl
      | none =>
        cases hconnect : network.respond (.connect server) s with
        | mk connected t =>
        cases connected with
        | error reason =>
          rw [run_setUp_refused hserver hconnect]
          exact .refused hlookup hserver hsession hconnect
        | ok socket =>
        cases hdraw : network.respond .drawId t with
        | mk lastId u =>
        rw [run_setUp_opened hserver hconnect hdraw]
        exact .opened hlookup hserver hsession hconnect hdraw rfl

/-- One call of a run: the resolver and the network that it found, and everything that happened. -/
structure Performed (σ : Type) where
  found : Resolver
  start : σ
  call : Call
  done : Finished σ (Answer × Resolver)

/-- The calls of a run in their order, each on the resolver that the one before it left. -/
def history (network : Network σ) (resolver : Resolver) (s : σ) : List Call → List (Performed σ)
  | [] => []
  | call :: calls =>
    let done := (resolver.carry call).run network s
    ⟨resolver, s, call, done⟩ :: history network done.value.2 done.network calls

/-- The resolver and the network after a run. -/
def outcome (network : Network σ) (resolver : Resolver) (s : σ) : List Call → Resolver × σ
  | [] => (resolver, s)
  | call :: calls =>
    let done := (resolver.carry call).run network s
    outcome network done.value.2 done.network calls

/-- The settings after some calls. -/
def configured (source : ConfigSource) (calls : List Call) : ConfigSource :=
  calls.foldl Call.configures source

theorem map_call_history (calls : List Call) :
    (history network resolver s calls).map Performed.call = calls := by
  induction calls generalizing resolver s with
  | nil => rfl
  | cons call calls ih => rw [history, List.map_cons, ih]

/-- Nothing happens in a run but what happens in its calls. -/
theorem run_performAll (steps : List Step) :
    (resolver.performAll steps).run network s =
      let run := history network resolver s (steps.map .ofStep)
      let left := outcome network resolver s (steps.map .ofStep)
      ⟨(run.map (·.done.value.1), left.1), run.flatMap (·.done.events), left.2⟩ := by
  induction steps generalizing resolver s with
  | nil => rfl
  | cons step steps ih =>
    simp only [performAll, Dialogue.run_bind, List.map_cons, history, outcome, carry_ofStep,
      List.flatMap_cons, Pure.pure, Dialogue.run, List.append_nil, ih]

theorem history_append (network : Network σ) (resolver : Resolver) (s : σ)
    (before later : List Call) :
    history network resolver s (before ++ later) =
      history network resolver s before ++
        history network (outcome network resolver s before).1
          (outcome network resolver s before).2 later := by
  induction before generalizing resolver s with
  | nil => rfl
  | cons call before ih => exact congrArg _ (ih _ _)

theorem outcome_append (network : Network σ) (resolver : Resolver) (s : σ)
    (before later : List Call) :
    outcome network resolver s (before ++ later) =
      outcome network (outcome network resolver s before).1
        (outcome network resolver s before).2 later := by
  induction before generalizing resolver s with
  | nil => rfl
  | cons call before ih => exact ih _ _

section
variable {calls : List Call} {earlier later : List (Performed σ)} {step : Performed σ}

/-- A part of a run is a run from where the part before it ends. -/
theorem history_split (h : history network resolver s calls = earlier ++ later) :
    let left := outcome network resolver s (earlier.map Performed.call)
    earlier = history network resolver s (earlier.map Performed.call) ∧
      later = history network left.1 left.2 (later.map Performed.call) := by
  induction earlier generalizing resolver s calls with
  | nil =>
    refine ⟨rfl, ?_⟩
    obtain rfl : history network resolver s calls = later := h
    exact congrArg _ (map_call_history calls).symm
  | cons step earlier ih =>
    cases calls with
    | nil => cases h
    | cons call calls =>
      obtain ⟨rfl, hrest⟩ := List.cons.inj h
      obtain ⟨hearlier, hlater⟩ := ih hrest
      exact ⟨congrArg _ hearlier, hlater⟩

/-- A call of a run is carried out on what the calls before it left, and leaves it to those after
it. -/
theorem history_at (h : history network resolver s calls = earlier ++ step :: later) :
    (step.found, step.start) = outcome network resolver s (earlier.map Performed.call) ∧
      step.done = (step.found.carry step.call).run network step.start ∧
      later = history network step.done.value.2 step.done.network (later.map Performed.call) := by
  obtain ⟨hstep, hlater⟩ := List.cons.inj (history_split h).2
  refine ⟨?_, ?_, ?_⟩
  · rw [hstep]
  · rw [hstep]
  · rw [hstep]
    exact hlater

theorem outcome_at (h : history network resolver s calls = earlier ++ step :: later) :
    outcome network resolver s ((earlier ++ [step]).map Performed.call) =
      (step.done.value.2, step.done.network) := by
  obtain ⟨hfound, hdone, -⟩ := history_at h
  rw [List.map_append, outcome_append, ← hfound, hdone]
  rfl

theorem performs_at (h : history network resolver s calls = earlier ++ step :: later) :
    Performs network step.found step.start step.call step.done := by
  rw [(history_at h).2.1]
  exact performs_carry network step.found step.start step.call

end
end Resolver
end StubDns
