import StubDns.Proofs.Resolver.Lifecycle
import StubDns.Script

/-! What becomes of an open association when its settings are withdrawn. -/
namespace StubDns.Resolver

variable {σ : Type} {network : Network σ} {s : σ} {resolver : Resolver} {call : Call}
  {calls : List Call} {done : Finished σ (Answer × Resolver)} {lookup : Exchange.Call}
  {server : Endpoint} {exchange : Exchange}

/-- The server that the first lookup of a run finds configured. -/
def firstServer (source : ConfigSource) : List Call → Option Endpoint
  | [] => none
  | call :: calls =>
    match call.lookup? with
    | some _ => source.nameServer
    | none => firstServer (call.configures source) calls

theorem firstServer_idle (h : call.lookup? = none) (source : ConfigSource) (calls : List Call) :
    firstServer source (call :: calls) = firstServer (call.configures source) calls := by
  rw [firstServer, h]

theorem firstServer_lookup (h : call.lookup? = some lookup) (source : ConfigSource)
    (calls : List Call) : firstServer source (call :: calls) = source.nameServer := by
  rw [firstServer, h]

/-- What is done by a lookup that finds nothing open. -/
theorem Performs.connects_afresh (h : Performs network resolver s call done)
    (hlookup : call.lookup? = some lookup) (hserver : resolver.source.nameServer = some server)
    (hsession : resolver.session = none) :
    (∃ reason, done.events = [⟨.connect server, .error reason⟩]) ∨
    ∃ socket lastId t, done.events = ⟨.connect server, .ok socket⟩ :: ⟨.drawId, lastId⟩ ::
      (((resolver.source.exchange server socket lastId).carry lookup).run network t).events := by
  cases h with
  | idle hidle => cases hidle.symm.trans hlookup
  | unconfigured _ hnone => cases hnone.symm.trans hserver
  | withdrawn _ hnone => cases hnone.symm.trans hserver
  | refused _ hother =>
    obtain rfl := Option.some.inj (hother.symm.trans hserver)
    exact .inl ⟨_, rfl⟩
  | opened hcall hother _ _ _ hdone =>
    obtain rfl := Option.some.inj (hother.symm.trans hserver)
    obtain rfl := Option.some.inj (hcall.symm.trans hlookup)
    rw [hdone]
    exact .inr ⟨_, _, _, rfl⟩
  | served _ _ hsome => cases hsome.symm.trans hsession

/-- Nothing that was open before a run is used in it when its first lookup finds no server. -/
theorem usesOwn_of_noticed (h : firstServer resolver.source calls = none) :
    UsesOwn ((history network resolver s calls).flatMap (·.done.events)) := by
  induction calls generalizing resolver s with
  | nil =>
    intro earlier event later socket hevents
    cases earlier <;> cases hevents
  | cons call calls ih =>
    have hcall := performs_carry network resolver s call
    rw [history, List.flatMap_cons]
    generalize (resolver.carry call).run network s = done at hcall ⊢
    cases hcall with
    | idle hidle =>
      rw [firstServer_idle hidle, ← call.settle_source] at h
      exact ih h
    | unconfigured => exact (orderly_history_afresh network _ calls rfl).usesOwn
    | @withdrawn lookup exchange =>
      exact (orderly_history_afresh network _ calls rfl).usesOwn_cons_closed exchange.socket
    | refused hlookup hserver | opened hlookup hserver | served hlookup hserver =>
      rw [firstServer_lookup hlookup, hserver] at h
      cases h

/-- The open exchange serves the first lookup of a run that finds any server at all. -/
theorem served_by_open (hsession : resolver.session = some exchange)
    (h : firstServer resolver.source calls = some server) :
    ∃ idle step rest lookup, history network resolver s calls = idle ++ step :: rest ∧
      (∀ other ∈ idle, other.call.lookup? = none ∧ other.done.events = []) ∧
      step.call.lookup? = some lookup ∧
      step.done.events = ((exchange.carry lookup).run network s).events := by
  induction calls generalizing resolver with
  | nil => cases h
  | cons call calls ih =>
    rw [history]
    have hcall := performs_carry network resolver s call
    generalize (resolver.carry call).run network s = done at hcall ⊢
    cases hcall with
    | idle hidle =>
      rw [firstServer_idle hidle, ← call.settle_source] at h
      obtain ⟨idle, step, rest, lookup, hrun, hquiet, hstep⟩ :=
        ih ((call.settle_session resolver).trans hsession) h
      exact ⟨_ :: idle, step, rest, lookup, congrArg _ hrun,
        List.forall_mem_cons.mpr ⟨⟨hidle, rfl⟩, hquiet⟩, hstep⟩
    | unconfigured _ _ hnone | refused _ _ hnone | opened _ _ hnone =>
      cases hnone.symm.trans hsession
    | withdrawn hlookup hnone =>
      rw [firstServer_lookup hlookup, hnone] at h
      cases h
    | @served lookup _ _ done hlookup _ hsome hdone =>
      obtain rfl := Option.some.inj (hsome.symm.trans hsession)
      exact ⟨[], _, _, lookup, rfl, fun _ hmem => absurd hmem List.not_mem_nil, hlookup,
        congrArg Finished.events hdone⟩

/-- What is open at any moment of a run is given up by the next lookup if that finds no server, and
otherwise serves it. So a withdrawal ends an association only when a lookup comes before other
settings do. What is opened later goes by the settings of its own moment. -/
theorem open_until_noticed (network : Network σ) (s : σ) (source : ConfigSource)
    (registry : Registry) (before later : List Call) :
    let resolver : Resolver := { source, registry }
    let left := outcome network resolver s before
    let run := history network left.1 left.2 later
    let first := firstServer (configured source before) later
    history network resolver s (before ++ later) = history network resolver s before ++ run ∧
    (left.1.session = none ∨ first = none → UsesOwn (run.flatMap (·.done.events))) ∧
    (∀ exchange server, left.1.session = some exchange → first = some server →
      ∃ idle step rest lookup, run = idle ++ step :: rest ∧
        (∀ other ∈ idle, other.call.lookup? = none ∧ other.done.events = []) ∧
        step.call.lookup? = some lookup ∧
        step.done.events = ((exchange.carry lookup).run network left.2).events) ∧
    (∀ earlier step rest lookup server, run = earlier ++ step :: rest →
      let found := configured source (before ++ earlier.map Performed.call)
      step.call.lookup? = some lookup → found.nameServer = some server →
      step.found.session = none →
        (∃ reason, step.done.events = [⟨.connect server, .error reason⟩]) ∨
        ∃ socket lastId t, step.done.events = ⟨.connect server, .ok socket⟩ :: ⟨.drawId, lastId⟩ ::
          (((found.exchange server socket lastId).carry lookup).run network t).events) := by
  intro resolver left run first
  have hsource : left.1.source = configured source before := source_outcome network resolver s before
  have hnext : firstServer left.1.source later = first := congrArg (firstServer · later) hsource
  refine ⟨history_append network resolver s before later, ?_, ?_, ?_⟩
  · rintro (hsession | hfirst)
    · exact (orderly_history_afresh network left.2 later hsession).usesOwn
    · exact usesOwn_of_noticed (hnext.trans hfirst)
  · intro exchange server hsession hfirst
    exact served_by_open hsession (hnext.trans hfirst)
  · intro earlier step rest lookup server hrun found hlookup hserver hsession
    have hfound : step.found.source = found := by
      rw [source_at hrun, hsource]
      simp only [found, configured, List.foldl_append]
    rw [← hfound] at hserver ⊢
    exact (performs_at hrun).connects_afresh hlookup hserver hsession

/-- Settings that are withdrawn and replaced between two lookups: the second goes over the old
association, to the old server, without the new suffix and on the old schedule. -/
theorem old_association_after_replace :
    let old : Settings := { nameserver := some (.v4 ⟨10, 0, 0, 1⟩), attempts := 1 }
    let new : Settings :=
      { nameserver := some (.v4 ⟨10, 0, 0, 2⟩), search := some "lan", attempts := 2,
        minWaitMs := 250 }
    let calls : List Call :=
      [.lookupAddress [97, 46, 98] .inet, .configure none, .configure (some new),
        .lookupAddress [119, 119, 119] .inet]
    let run := history ScriptedNetwork.network { source := .shared (some old) }
      { server := .v4 ⟨10, 0, 0, 1⟩ 53, connections := [.ok [], .ok []] } calls
    let later := (run.drop 2).flatMap (·.done.events)
    (configured (.shared (some old)) (calls.take 2)).nameServer = none ∧
      (run.flatMap (·.done.events)).filterMap Event.server? = [.v4 ⟨10, 0, 0, 1⟩ 53] ∧
      later.map Event.request =
        [.write 0 [0, 2, 1, 0, 0, 1, 0, 0, 0, 0, 0, 0, 3, 119, 119, 119, 0, 0, 1, 0, 1],
          .setTimeout 0 (Duration.ofMillis 1000), .read 0 512] ∧
      ¬ UsesOwn later := by
  intro old new calls run later
  have hlater : later.map Event.request =
      [.write 0 [0, 2, 1, 0, 0, 1, 0, 0, 0, 0, 0, 0, 3, 119, 119, 119, 0, 0, 1, 0, 1],
        .setTimeout 0 (Duration.ofMillis 1000), .read 0 512] := by
    decide +kernel
  refine ⟨rfl, by decide +kernel, hlater, ?_⟩
  intro hown
  obtain ⟨event, events, hevents, hwrite, -⟩ := List.map_eq_cons_iff.mp hlater
  have hsocket : event.socket? = some 0 := by rw [Event.socket?, hwrite]
  cases hown [] event events 0 hevents hsocket

end StubDns.Resolver
