import StubDns.Proofs.Resolver.Withdrawal
import StubDns.Script

/-! Which calls fail, and what a call that fails leaves as it was. Nothing that happens to a query
once it is on its way makes a call fail. -/
namespace StubDns.Resolver

variable {σ : Type} {network : Network σ} {s : σ} {resolver : Resolver} {call : Call}
  {calls : List Call} {done : Finished σ (Answer × Resolver)} {lookup : Exchange.Call}
  {server : Endpoint} {reason : ResolveError}

/-- Why an answer is none. -/
def Answer.failure? : Answer → Option ResolveError
  | .host (.error reason) => some reason
  | .name (.error reason) _ => some reason
  | .hostname (.error reason) => some reason
  | _ => none

/-- What the lent buffer holds when it is given back. -/
def Answer.lent? : Answer → Option Bytes
  | .name _ out => some out
  | _ => none

/-- Why nothing can serve a lookup: there is no server, or nothing is open and the server cannot be
connected to. -/
def unready? (network : Network σ) (resolver : Resolver) (s : σ) : Option ResolveError :=
  match resolver.source.nameServer with
  | none => some .notConfigured
  | some server =>
    if resolver.isConnected then none
    else
      match (network.respond (.connect server) s).1 with
      | .error reason => some reason
      | .ok _ => none

namespace Call

def lent? : Call → Option Bytes
  | .lookupName _ out => some out.bytes
  | _ => none

/-- The first thing that stands in the way of a call. The buffer is looked at before the address. -/
def obstacle? (network : Network σ) (resolver : Resolver) (s : σ) : Call → Option ResolveError
  | .lookupAddress _ family =>
    if family ≠ .inet then some .unsupportedFamily else resolver.unready? network s
  | @lookupName address capacity _ =>
    if capacity < Name.sizeMax then some (.bufferTooSmall capacity Name.sizeMax)
    else
      match address with
      | .v6 _ => some .unsupportedFamily
      | .v4 _ => resolver.unready? network s
  | .lookupHostname address =>
    match address with
    | .v6 _ => some .unsupportedFamily
    | .v4 _ => resolver.unready? network s
  | .configure _ => none
  | .hostByAddress _ _ => none

theorem obstacle?_of_lookup? (h : call.lookup? = some lookup) :
    call.obstacle? network resolver s = resolver.unready? network s := by
  cases call with
  | configure | hostByAddress => cases h
  | lookupAddress hostname family =>
    cases family with
    | inet => rfl
    | inet6 | unspec => cases h
  | @lookupName address capacity out =>
    cases address with
    | v6 target => cases h
    | v4 target =>
      rw [lookup?] at h
      split at h
      · cases h
      · next hcapacity => rw [obstacle?, if_neg hcapacity]
  | lookupHostname address =>
    cases address with
    | v6 target => cases h
    | v4 target => rfl

/-- The arguments of a call that comes to no lookup are what is wrong with it, if anything is. -/
theorem failure?_settle (h : call.lookup? = none) :
    (call.settle resolver).1.failure? = call.obstacle? network resolver s := by
  cases call with
  | configure | hostByAddress => rfl
  | lookupAddress hostname family =>
    cases family with
    | inet => cases h
    | inet6 | unspec => rfl
  | @lookupName address capacity out =>
    simp only [settle, failed, refusal, Answer.failure?, obstacle?]
    by_cases hcapacity : capacity < Name.sizeMax
    · rw [if_pos hcapacity, if_pos hcapacity]
    · rw [if_neg hcapacity, if_neg hcapacity]
      cases address with
      | v6 target => rfl
      | v4 target =>
        rw [lookup?, if_neg hcapacity] at h
        cases h
  | lookupHostname address =>
    cases address with
    | v6 target => rfl
    | v4 target => cases h

theorem failure?_failed (h : call.lookup? = some lookup) (reason : ResolveError) :
    (call.failed reason).failure? = some reason := by
  cases call with
  | configure | hostByAddress => cases h
  | lookupAddress | lookupName | lookupHostname => rfl

theorem lent?_failed (h : call.lookup? = some lookup) (reason : ResolveError) :
    (call.failed reason).lent? = call.lent? := by
  cases call with
  | configure | hostByAddress => cases h
  | lookupAddress | lookupName | lookupHostname => rfl

/-- A call whose arguments are wrong changes nothing at all. -/
theorem settle_of_failure (h : (call.settle resolver).1.failure? = some reason) :
    (call.settle resolver).1.lent? = call.lent? ∧ (call.settle resolver).2 = resolver ∧
      reason ≠ .notConfigured := by
  cases call with
  | configure | hostByAddress => cases h
  | lookupAddress | lookupHostname =>
    obtain rfl := Option.some.inj h
    exact ⟨rfl, rfl, by simp [refusal]⟩
  | @lookupName address capacity out =>
    obtain rfl := Option.some.inj h
    refine ⟨rfl, rfl, ?_⟩
    rw [refusal]
    by_cases hcapacity : capacity < Name.sizeMax
    · simp [hcapacity]
    · simp [hcapacity]

/-- Whatever an exchange has found, be it nothing, is no failure. -/
theorem failure?_conclude (call : Call) (resolver : Resolver)
    (served : Exchange.Answer × Exchange) :
    (call.conclude resolver served).1.failure? = none := by
  obtain ⟨answer, exchange⟩ := served
  cases answer with
  | address found =>
    cases found with
    | none => rfl
    | some address => rfl
  | name result out => cases call <;> rfl

end Call

theorem Performs.failure?_eq (h : Performs network resolver s call done) :
    done.value.1.failure? = call.obstacle? network resolver s := by
  cases h with
  | idle hidle => exact Call.failure?_settle hidle
  | unconfigured hlookup hserver | withdrawn hlookup hserver =>
    rw [Call.failure?_failed hlookup, Call.obstacle?_of_lookup? hlookup, unready?, hserver]
  | refused hlookup hserver hsession hconnect =>
    rw [Call.failure?_failed hlookup, Call.obstacle?_of_lookup? hlookup, unready?, hserver]
    simp [isConnected, hsession, hconnect]
  | opened hlookup hserver hsession hconnect =>
    rw [Call.failure?_conclude, Call.obstacle?_of_lookup? hlookup, unready?, hserver]
    simp [isConnected, hsession, hconnect]
  | served hlookup hserver hsession =>
    rw [Call.failure?_conclude, Call.obstacle?_of_lookup? hlookup, unready?, hserver]
    simp [isConnected, hsession]

-- The same error is a failure of the call if it comes from connecting, and none if a read gives it.
example :
    let server : Endpoint := .v4 ⟨192, 0, 2, 1⟩ 53
    let resolver : Resolver := { source := .fixed (some server) none }
    let refusing : ScriptedNetwork := { server, connections := [.error "no route"] }
    let failing : ScriptedNetwork :=
      { server, connections := [.ok [.readError (.transport "no route")]] }
    let failure? (s : ScriptedNetwork) :=
      ((resolver.carry (.lookupHostname (.v4 ⟨10, 0, 0, 1⟩))).run
        ScriptedNetwork.network s).value.1.failure?
    failure? refusing = some (.transport "no route") ∧ failure? failing = none := by
  decide +kernel

/-- While nothing is open, the first lookup of a run that finds a server connects to it. -/
theorem connects_first (hsession : resolver.session = none)
    (h : firstServer resolver.source calls = some server) :
    ∃ reply events, (history network resolver s calls).flatMap (·.done.events) =
      ⟨.connect server, reply⟩ :: events := by
  induction calls generalizing resolver s with
  | nil => cases h
  | cons call calls ih =>
    have hcall := performs_carry network resolver s call
    rw [history, List.flatMap_cons]
    generalize (resolver.carry call).run network s = done at hcall ⊢
    cases hcall with
    | idle hidle =>
      rw [firstServer_idle hidle, ← call.settle_source] at h
      exact ih ((call.settle_session resolver).trans hsession) h
    | unconfigured hlookup hnone | withdrawn hlookup hnone =>
      rw [firstServer_lookup hlookup, hnone] at h
      cases h
    | refused hlookup hserver | opened hlookup hserver =>
      rw [firstServer_lookup hlookup, hserver] at h
      obtain rfl := Option.some.inj h
      exact ⟨_, _, rfl⟩
    | served _ _ hsome => cases hsome.symm.trans hsession

/-- What a call that fails for `reason` has done, and what it leaves. -/
structure Spares (network : Network σ) (resolver : Resolver) (call : Call) (reason : ResolveError)
    (done : Finished σ (Answer × Resolver)) : Prop where
  /-- Nothing was written, timed or read. -/
  unused : ∀ event ∈ done.events, event.socket? = none
  registry : done.value.2.registry = resolver.registry
  source : done.value.2.source = resolver.source
  lent : done.value.1.lent? = call.lent?
  refused : (reason = .unsupportedFamily ∨
    ∃ capacity required, reason = .bufferTooSmall capacity required) →
      done.value.2.session = resolver.session
  unconfigured : reason = .notConfigured → done.value.2.session = none
  /-- The next lookup that finds a server connects to it. -/
  unconnected : ∀ server, ⟨.connect server, .error reason⟩ ∈ done.events →
    done.value.2.session = none ∧
      ∀ calls next, firstServer done.value.2.source calls = some next →
        ∃ reply events, (history network done.value.2 done.network calls).flatMap (·.done.events) =
          ⟨.connect next, reply⟩ :: events

theorem Spares.of_unconfigured {events : List Event} {t : σ} (hlookup : call.lookup? = some lookup)
    (hunused : ∀ event ∈ events, event.socket? = none)
    (hconnect : ∀ event ∈ events, event.server? = none) :
    Spares network resolver call .notConfigured
      ⟨(call.failed .notConfigured, { resolver with session := none }), events, t⟩ := by
  refine ⟨hunused, rfl, rfl, Call.lent?_failed hlookup _, ?_, fun _ => rfl, ?_⟩
  · rintro (hreason | ⟨capacity, required, hreason⟩) <;> cases hreason
  · intro server hmem
    cases hconnect _ hmem

theorem Performs.spares (h : Performs network resolver s call done)
    (hfails : done.value.1.failure? = some reason) :
    Spares network resolver call reason done := by
  cases h with
  | idle =>
    obtain ⟨hlent, hsame, hreason⟩ := Call.settle_of_failure hfails
    refine ⟨nofun, ?_, ?_, hlent, ?_, fun habsent => absurd habsent hreason, nofun⟩
    · exact congrArg Resolver.registry hsame
    · exact congrArg Resolver.source hsame
    · intro _
      exact congrArg Resolver.session hsame
  | unconfigured hlookup =>
    rw [Call.failure?_failed hlookup] at hfails
    obtain rfl := Option.some.inj hfails
    exact .of_unconfigured hlookup nofun nofun
  | withdrawn hlookup =>
    rw [Call.failure?_failed hlookup] at hfails
    obtain rfl := Option.some.inj hfails
    exact .of_unconfigured hlookup (by simp [Event.socket?]) (by simp [Event.server?])
  | refused hlookup hserver hsession hconnect =>
    rw [Call.failure?_failed hlookup] at hfails
    obtain rfl := Option.some.inj hfails
    refine ⟨by simp [Event.socket?], rfl, rfl, Call.lent?_failed hlookup _, fun _ => hsession.symm,
      fun _ => rfl, fun _ _ => ⟨rfl, ?_⟩⟩
    intro calls next hnext
    exact connects_first rfl hnext
  | opened | served =>
    rw [Call.failure?_conclude] at hfails
    cases hfails

/-- A call fails exactly with the first obstacle in its way, whatever becomes of the queries that are
sent. A call that fails has sent none. It leaves the registry and the lent buffer as they were, and
the association too if its arguments are to blame; else nothing is open after it, and after a
connection that failed the next lookup connects again. -/
theorem fails_before_sending (network : Network σ) (resolver : Resolver) (s : σ) (call : Call) :
    let done := (resolver.carry call).run network s
    done.value.1.failure? = call.obstacle? network resolver s ∧
      ∀ reason, done.value.1.failure? = some reason → Spares network resolver call reason done := by
  intro done
  have hcall : Performs network resolver s call done := performs_carry network resolver s call
  exact ⟨hcall.failure?_eq, fun reason hfails => hcall.spares hfails⟩

/-- A lookup whose connection is refused: it fails with that reason, leaves nothing open and the
buffer of its caller alone, and the next lookup connects again. -/
theorem connects_after_refusal :
    let server : Endpoint := .v4 ⟨192, 0, 2, 53⟩ 53
    let lent : Buffer Name.sizeMax := ⟨List.replicate 256 255, List.length_replicate⟩
    let network := ScriptedNetwork.network
    let resolver : Resolver := { source := .fixed (some server) none }
    let s : ScriptedNetwork := { server, connections := [.error "no route", .ok []] }
    let call : Call := .lookupName (.v4 ⟨10, 0, 0, 1⟩) lent
    let next : Call := .lookupAddress [97] .inet
    let done := (resolver.carry call).run network s
    done.value.1.failure? = some (.transport "no route") ∧ done.value.1.lent? = some lent.bytes ∧
      done.value.2.session = none ∧
      ∃ reply events, (history network done.value.2 done.network [next]).flatMap (·.done.events) =
        ⟨.connect server, reply⟩ :: events := by
  intro server lent network resolver s call next done
  obtain ⟨hfailure, hspares⟩ := fails_before_sending network resolver s call
  have hobstacle : call.obstacle? network resolver s = some (.transport "no route") := by
    decide +kernel
  have hspared := hspares _ (hfailure.trans hobstacle)
  have hconnect : ⟨.connect server, .error (.transport "no route")⟩ ∈ done.events :=
    List.mem_cons_self
  obtain ⟨hsession, hagain⟩ := hspared.unconnected server hconnect
  exact ⟨hfailure.trans hobstacle, hspared.lent, hsession, hagain [next] server rfl⟩

end StubDns.Resolver
