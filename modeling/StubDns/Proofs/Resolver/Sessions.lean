import StubDns.Proofs.Resolver.Lifecycle
import StubDns.Script

/-! From an opening to the next closing, a resolver does what one exchange does by itself. -/
namespace StubDns.Exchange

variable {σ : Type} {network : Network σ} {s : σ} {exchange : Exchange}

/-- The terms on which an exchange was opened hold for all of its lookups. -/
theorem sameTerms_of_history {calls : List Call} {lookup : Lookup σ}
    (h : lookup ∈ history network exchange s calls) : lookup.found.SameTerms exchange := by
  induction calls generalizing exchange s with
  | nil => cases h
  | cons call calls ih =>
    rcases List.mem_cons.mp h with rfl | h
    · exact ⟨rfl, rfl, rfl, rfl⟩
    · exact (ih h).trans (run_carry_sameTerms network s exchange call).2

end StubDns.Exchange

namespace StubDns.Resolver

variable {σ : Type} {network : Network σ} {s : σ} {resolver : Resolver} {call : Call}
  {calls : List Call} {server : Endpoint} {socket : Socket} {exchange : Exchange}
  {done : Finished σ (Answer × Resolver)}

namespace Performed

def lookup? (step : Performed σ) : Option Exchange.Call := step.call.lookup?

/-- The step begins with a connection that succeeds. -/
def Opens (step : Performed σ) (server : Endpoint) (socket : Socket) : Prop :=
  ∃ events, step.done.events = ⟨.connect server, .ok socket⟩ :: events

def ClosesNothing (step : Performed σ) : Prop := step.done.events.filterMap Event.closed? = []

/-- After some events of its own, the step is the lookup of an exchange, whose answer it passes on
as its call receives it. -/
structure Passes (step : Performed σ) (ahead : List Event) (lookup : Exchange.Lookup σ) :
    Prop where
  call : step.lookup? = some lookup.call
  events : step.done.events = ahead ++ lookup.done.events
  answer : (step.done.value.1, step.done.value.2.registry) =
    step.call.receive step.found.registry lookup.done.value.1

end Performed

/-- The steps are lookups of an exchange in their order, and steps in which nothing happens. -/
inductive Mirrors : List (Performed σ) → List (Exchange.Lookup σ) → Prop
  | nil : Mirrors [] []
  | idle {step : Performed σ} {steps : List (Performed σ)} {lookups : List (Exchange.Lookup σ)} :
      step.lookup? = none → step.done.events = [] → Mirrors steps lookups →
      Mirrors (step :: steps) lookups
  | lookup {step : Performed σ} {steps : List (Performed σ)} {lookup : Exchange.Lookup σ}
      {lookups : List (Exchange.Lookup σ)} : step.Passes [] lookup → Mirrors steps lookups →
      Mirrors (step :: steps) (lookup :: lookups)

/-- As long as nothing is closed, the open exchange serves all lookups. -/
theorem mirrors_history (hsession : resolver.session = some exchange)
    (hopen : ∀ step ∈ history network resolver s calls, step.ClosesNothing) :
    Mirrors (history network resolver s calls)
      (Exchange.history network exchange s (calls.filterMap Call.lookup?)) := by
  induction calls generalizing resolver s exchange with
  | nil => exact .nil
  | cons call calls ih =>
    have hcall := performs_carry network resolver s call
    rw [history] at hopen ⊢
    generalize (resolver.carry call).run network s = done at hcall hopen ⊢
    obtain ⟨hstep, hrest⟩ := List.forall_mem_cons.mp hopen
    cases hcall with
    | idle hidle =>
      rw [List.filterMap_cons_none hidle]
      exact .idle hidle rfl (ih ((call.settle_session resolver).trans hsession) hrest)
    | unconfigured _ _ hnone | refused _ _ hnone | opened _ _ hnone =>
      cases hnone.symm.trans hsession
    | withdrawn => cases hstep
    | served hlookup _ hsome hdone =>
      obtain rfl := Option.some.inj (hsome.symm.trans hsession)
      obtain rfl := hdone
      rw [List.filterMap_cons_some hlookup]
      exact .lookup ⟨hlookup, rfl, rfl⟩ (ih rfl hrest)

/-- What opens an association is a lookup over a new exchange. -/
theorem Performs.opens {events : List Event} (h : Performs network resolver s call done)
    (hopens : done.events = ⟨.connect server, .ok socket⟩ :: events) :
    let drawn := network.respond .drawId (network.respond (.connect server) s).2
    let exchange := resolver.source.exchange server socket drawn.1
    resolver.source.nameServer = some server ∧ ∃ lookup, call.lookup? = some lookup ∧
      let alone := (exchange.carry lookup).run network drawn.2
      done = ⟨call.conclude resolver alone.value,
        ⟨.connect server, .ok socket⟩ :: ⟨.drawId, drawn.1⟩ :: alone.events, alone.network⟩ := by
  cases h with
  | idle => cases hopens
  | unconfigured => cases hopens
  | withdrawn => cases hopens
  | refused => cases hopens
  | opened hlookup hserver hsession hconnect hdraw hdone =>
    cases hopens
    simp only [hconnect, hdraw]
    obtain rfl := hdone
    exact ⟨hserver, _, hlookup, rfl⟩
  | @served lookup _ exchange done _ _ _ hdone =>
    have hsocket := (Exchange.run_carry_sameTerms network s exchange lookup).1
    rw [← hdone, hopens] at hsocket
    cases hsocket _ List.mem_cons_self

/-- From an opening on, and as long as nothing is closed, a run is that of the new exchange. -/
theorem mirrors_from_opening {before rest after : List (Performed σ)} {opening : Performed σ}
    (h : history network resolver s calls = before ++ opening :: (rest ++ after))
    (hopens : opening.Opens server socket) (hquiet : ∀ step ∈ rest, step.ClosesNothing) :
    let drawn := network.respond .drawId (network.respond (.connect server) opening.start).2
    let exchange := opening.found.source.exchange server socket drawn.1
    opening.found.source.nameServer = some server ∧
    ∃ lookup lookups, Exchange.history network exchange drawn.2
        ((opening :: rest).filterMap Performed.lookup?) = lookup :: lookups ∧
      opening.Passes [⟨.connect server, .ok socket⟩, ⟨.drawId, drawn.1⟩] lookup ∧
      Mirrors rest lookups := by
  obtain ⟨events, hevents⟩ := hopens
  obtain ⟨hserver, lookup, hlookup, hdone⟩ := (performs_at h).opens hevents
  obtain ⟨hrest, -⟩ := history_split (history_at h).2.2.symm
  rw [hrest] at hquiet
  have hmirrors := mirrors_history (congrArg (·.value.2.session) hdone) hquiet
  rw [← hrest, List.filterMap_map] at hmirrors
  have hcalls : (opening :: rest).filterMap Performed.lookup? =
      lookup :: rest.filterMap Performed.lookup? := List.filterMap_cons_some hlookup
  rw [hcalls]
  refine ⟨hserver, _, _, rfl, ⟨hlookup, congrArg Finished.events hdone, ?_⟩, ?_⟩
  · rw [hdone]
    rfl
  · rw [hdone] at hmirrors
    exact hmirrors

/-- What is open after a call was open before it, or was opened by it. -/
theorem Performs.connected_since (h : Performs network resolver s call done)
    (hafter : done.value.2.isConnected = true) :
    (resolver.isConnected = true ∧ done.events.filterMap Event.closed? = []) ∨
      ∃ server socket events, done.events = ⟨.connect server, .ok socket⟩ :: events := by
  cases h with
  | idle =>
    rw [isConnected, call.settle_session] at hafter
    exact .inl ⟨hafter, rfl⟩
  | unconfigured => cases hafter
  | withdrawn => cases hafter
  | refused => cases hafter
  | opened => exact .inr ⟨_, _, _, rfl⟩
  | served _ _ hsession hdone =>
    have hbefore : resolver.isConnected = true := by
      rw [isConnected, hsession]
      rfl
    exact .inl ⟨hbefore, (connects_nothing hdone).2⟩

/-- A call that leaves nothing open has used nothing. -/
theorem Performs.unused (h : Performs network resolver s call done)
    (hafter : done.value.2.isConnected = false) : ∀ event ∈ done.events, event.socket? = none := by
  cases h with
  | idle => simp
  | unconfigured => simp
  | withdrawn => simp [Event.socket?]
  | refused => simp [Event.socket?]
  | opened => cases hafter
  | served => cases hafter

/-- What is open after a run was open all the time, or was opened in the run and not closed since. -/
theorem connected_since (h : (outcome network resolver s calls).1.isConnected = true) :
    (resolver.isConnected = true ∧
      ∀ step ∈ history network resolver s calls, step.ClosesNothing) ∨
    ∃ before opening rest server socket,
      history network resolver s calls = before ++ opening :: rest ∧
        opening.Opens server socket ∧ ∀ step ∈ rest, step.ClosesNothing := by
  induction calls generalizing resolver s with
  | nil => exact .inl ⟨h, fun _ hmem => absurd hmem List.not_mem_nil⟩
  | cons call calls ih =>
    rw [history]
    rcases ih h with ⟨hafter, hquiet⟩ | ⟨before, opening, rest, server, socket, hrun, hsince⟩
    · rcases (performs_carry network resolver s call).connected_since hafter with
        ⟨hbefore, hnone⟩ | ⟨server, socket, hopens⟩
      · exact .inl ⟨hbefore, List.forall_mem_cons.mpr ⟨hnone, hquiet⟩⟩
      · exact .inr ⟨[], _, _, server, socket, rfl, hopens, hquiet⟩
    · exact .inr ⟨_ :: before, opening, rest, server, socket, congrArg _ hrun, hsince⟩

/-- Cut at its openings and closings, a run is a sequence of exchanges that stand alone. From the
opening on, and as long as nothing is closed, the steps are the lookups of one exchange in their
order, on the settings of the opening, whatever the settings become in between. What happens
outside of these parts uses no association. -/
theorem sessions_are_exchanges (network : Network σ) (s : σ) (source : ConfigSource)
    (registry : Registry) (calls : List Call) :
    let run := history network { source, registry } s calls
    (∀ before opening rest after server socket, run = before ++ opening :: (rest ++ after) →
      opening.Opens server socket → (∀ step ∈ rest, step.ClosesNothing) →
      let found := configured source (before.map Performed.call)
      let drawn := network.respond .drawId (network.respond (.connect server) opening.start).2
      let exchange := found.exchange server socket drawn.1
      found.nameServer = some server ∧
      ∃ lookup lookups, Exchange.history network exchange drawn.2
          ((opening :: rest).filterMap Performed.lookup?) = lookup :: lookups ∧
        opening.Passes [⟨.connect server, .ok socket⟩, ⟨.drawId, drawn.1⟩] lookup ∧
        Mirrors rest lookups ∧ ∀ other ∈ lookup :: lookups, other.found.SameTerms exchange) ∧
    (∀ earlier step later, run = earlier ++ step :: later →
      (step.done.value.2.isConnected = true → ∃ before opening rest server socket,
        earlier ++ [step] = before ++ opening :: rest ∧ opening.Opens server socket ∧
          ∀ step ∈ rest, step.ClosesNothing) ∧
      (step.done.value.2.isConnected = false → ∀ event ∈ step.done.events, event.socket? = none)) := by
  intro run
  constructor
  · intro before opening rest after server socket hrun hopens hquiet found drawn exchange
    have hfound : opening.found.source = found := source_at hrun
    obtain ⟨hserver, lookup, lookups, halone, hpasses, hmirrors⟩ :=
      mirrors_from_opening hrun hopens hquiet
    rw [hfound] at hserver halone
    refine ⟨hserver, lookup, lookups, halone, hpasses, hmirrors, ?_⟩
    rw [← halone]
    exact fun other hother => Exchange.sameTerms_of_history hother
  · intro earlier step later hrun
    refine ⟨?_, (performs_at hrun).unused⟩
    intro hafter
    have hsplit : run = (earlier ++ [step]) ++ later := by
      rw [hrun, List.append_assoc]
      rfl
    have hconnected : (outcome network { source, registry } s
        ((earlier ++ [step]).map Performed.call)).1.isConnected = true := by
      rw [outcome_at hrun]
      exact hafter
    have hsince := connected_since hconnected
    rw [← (history_split hsplit).1] at hsince
    rcases hsince with ⟨hinitial, -⟩ | hsince
    · cases hinitial
    · exact hsince

/-- Settings that name another server, suffix and schedule and later none: the lookups before and
after the replacement are those of one exchange on the old settings, and the one after the withdrawal
uses nothing. -/
theorem session_outlives_settings :
    let old : Settings := { nameserver := some (.v4 ⟨10, 0, 0, 1⟩), attempts := 1 }
    let new : Settings :=
      { nameserver := some (.v4 ⟨10, 0, 0, 2⟩), search := some "lan", attempts := 2,
        minWaitMs := 250 }
    let source : ConfigSource := .shared (some old)
    let server : Endpoint := .v4 ⟨10, 0, 0, 1⟩ 53
    let tail : Bytes := [192, 12, 0, 1, 0, 1, 0, 0, 0, 60, 0, 4, 192, 0, 2, 7]
    let s : ScriptedNetwork := { server, connections := [.ok [.timeout, .reply { tail } none]] }
    let calls : List Call :=
      [.lookupAddress [97, 46, 98] .inet, .configure (some new),
        .lookupAddress [119, 119, 119] .inet, .configure none, .lookupAddress [119, 119, 119] .inet]
    let network := ScriptedNetwork.network
    let exchange := source.exchange server 0 0
    (configured source (calls.take 2)).nameServer = some (.v4 ⟨10, 0, 0, 2⟩ 53) ∧
    ∃ opening replaced second withdrawn closing first other,
      history network { source } s calls = [opening, replaced, second, withdrawn, closing] ∧
      Exchange.history network exchange (s.connect server).2
        [.address [97, 46, 98], .address [119, 119, 119]] = [first, other] ∧
      opening.Passes [⟨.connect server, .ok (0 : Nat)⟩, ⟨.drawId, (0 : UInt16)⟩] first ∧
      Mirrors [replaced, second] [other] ∧ other.found.SameTerms exchange ∧
      other.done.value.1 = .address (some ⟨192, 0, 2, 7⟩) ∧
      second.done.events.map Event.request =
        [.write 0 [0, 2, 1, 0, 0, 1, 0, 0, 0, 0, 0, 0, 3, 119, 119, 119, 0, 0, 1, 0, 1],
          .setTimeout 0 (Duration.ofMillis 1000), .read 0 512] ∧
      ∀ event ∈ closing.done.events, event.socket? = none := by
  intro old new source server tail s calls network exchange
  obtain ⟨hsessions, hends⟩ := sessions_are_exchanges network s source {} calls
  let run := history network { source } s calls
  obtain ⟨opening, replaced, second, withdrawn, closing, hrun⟩ :
      ∃ opening replaced second withdrawn closing,
        run = [opening, replaced, second, withdrawn, closing] := ⟨_, _, _, _, _, rfl⟩
  obtain ⟨hstart, hopens⟩ : opening.start = s ∧ opening.Opens server (0 : Nat) := by
    obtain rfl : _ = opening := Option.some.inj (congrArg List.head? hrun)
    exact ⟨rfl, _, rfl⟩
  -- facts about the steps are found by running, before the steps are given their names
  have hquiet : ∀ step ∈ (run.drop 1).take 2, step.done.events.filterMap Event.closed? = [] := by
    decide +kernel
  have hcalls : (run.take 3).filterMap Performed.lookup? =
      [.address [97, 46, 98], .address [119, 119, 119]] := rfl
  have hrequests : (run.drop 2).head?.map (·.done.events.map Event.request) =
      some [.write 0 [0, 2, 1, 0, 0, 1, 0, 0, 0, 0, 0, 0, 3, 119, 119, 119, 0, 0, 1, 0, 1],
        .setTimeout 0 (Duration.ofMillis 1000), .read 0 512] := by
    decide +kernel
  have hclosed : run.getLast?.map (·.done.value.2.isConnected) = some false := by decide +kernel
  have hanswers : (Exchange.history network exchange (s.connect server).2
      [.address [97, 46, 98], .address [119, 119, 119]]).map (·.done.value.1) =
        [.address none, .address (some ⟨192, 0, 2, 7⟩)] := by
    decide +kernel
  rw [hrun] at hquiet hcalls hrequests hclosed
  simp only [List.take_succ_cons, List.take_zero] at hcalls
  obtain ⟨-, first, lookups, halone, hpasses, hmirrors, hterms⟩ :=
    hsessions [] opening [replaced, second] [withdrawn, closing] server 0 hrun hopens hquiet
  rw [hstart, hcalls] at halone
  replace halone : Exchange.history network exchange (s.connect server).2
      [.address [97, 46, 98], .address [119, 119, 119]] = first :: lookups := halone
  rw [halone] at hanswers
  obtain ⟨other, rest, rfl, hanswer, hrest⟩ := List.map_eq_cons_iff.mp (List.cons.inj hanswers).2
  obtain rfl := List.map_eq_nil_iff.mp hrest
  refine ⟨rfl, opening, replaced, second, withdrawn, closing, first, other, hrun, halone, hpasses,
    hmirrors, hterms other (by simp), hanswer, Option.some.inj hrequests, ?_⟩
  exact (hends [opening, replaced, second, withdrawn] closing [] hrun).2 (Option.some.inj hclosed)

end StubDns.Resolver
