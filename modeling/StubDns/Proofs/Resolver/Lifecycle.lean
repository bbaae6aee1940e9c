import StubDns.Proofs.Resolver.Calls
import StubDns.Script

/-! When a resolver opens and closes associations, over runs of any calls. -/
namespace StubDns.Resolver

variable {σ : Type} {network : Network σ} {s : σ} {resolver : Resolver} {call : Call}
  {calls : List Call} {done : Finished σ (Answer × Resolver)}

/-- The association that is open. -/
def association (resolver : Resolver) : Option Socket := resolver.session.map Exchange.socket

theorem isConnected_iff : resolver.isConnected = true ↔ resolver.association.toList ≠ [] := by
  cases h : resolver.session <;> simp [isConnected, association, h]

namespace Call

/-- The servers that a call connects to, given the one that is configured and what is open. -/
def connects (call : Call) (server : Option Endpoint) (current : List Socket) : List Endpoint :=
  match call.lookup?, server, current with
  | some _, some server, [] => [server]
  | _, _, _ => []

/-- The associations that a call closes. -/
def closes (call : Call) (server : Option Endpoint) (current : List Socket) : List Socket :=
  match call.lookup?, server with
  | some _, none => current
  | _, _ => []

theorem settle_source (call : Call) (resolver : Resolver) :
    (call.settle resolver).2.source = call.configures resolver.source := by
  cases call <;> rfl

theorem settle_session (call : Call) (resolver : Resolver) :
    (call.settle resolver).2.session = resolver.session := by
  cases call <;> rfl

/-- A lookup leaves the settings as they are. -/
theorem configures_of_lookup? {lookup : Exchange.Call} (h : call.lookup? = some lookup)
    (source : ConfigSource) : call.configures source = source := by
  cases call with
  | configure settings => cases h
  | _ => rfl

end Call

/-- A lookup uses the association of its exchange and leaves it open. -/
theorem orderly_lookup (network : Network σ) (s : σ) (exchange : Exchange)
    (lookup : Exchange.Call) :
    Orderly (some exchange.socket) ((exchange.carry lookup).run network s).events
      (some ((exchange.carry lookup).run network s).value.2.socket) := by
  obtain ⟨hsocket, hterms⟩ := Exchange.run_carry_sameTerms network s exchange lookup
  rw [hterms.socket]
  exact .of_socket hsocket

/-- A lookup neither connects nor closes. -/
theorem connects_nothing {exchange : Exchange} {lookup : Exchange.Call}
    {done : Finished σ (Exchange.Answer × Exchange)}
    (hdone : done = (exchange.carry lookup).run network s) :
    done.events.filterMap Event.server? = [] ∧ done.events.filterMap Event.closed? = [] := by
  rw [hdone]
  exact Event.filterMap_of_socket? (Exchange.run_carry_sameTerms network s exchange lookup).1

namespace Performs

theorem source_eq (h : Performs network resolver s call done) :
    done.value.2.source = call.configures resolver.source := by
  cases h with
  | idle => exact call.settle_source resolver
  | unconfigured hlookup | withdrawn hlookup | refused hlookup | opened hlookup | served hlookup =>
    exact (Call.configures_of_lookup? hlookup _).symm

/-- A call begins with what is open before it, and leaves open what is open after it. -/
theorem orderly (h : Performs network resolver s call done) :
    Orderly resolver.association done.events done.value.2.association := by
  unfold association
  cases h with
  | idle =>
    rw [call.settle_session]
    exact .nil
  | unconfigured _ _ hsession =>
    rw [hsession]
    exact .nil
  | withdrawn _ _ hsession =>
    rw [hsession]
    exact .closed .nil
  | refused _ _ hsession =>
    rw [hsession]
    exact .refused .nil
  | @opened lookup server socket lastId _ u _ _ _ hsession _ _ hdone =>
    rw [hsession, hdone]
    have hlookup := orderly_lookup network u (resolver.source.exchange server socket lastId) lookup
    exact .opened (.drew hlookup)
  | served _ _ hsession hdone =>
    rw [hsession, hdone]
    exact orderly_lookup network s _ _

/-- A call connects and closes as the settings and what is open before it demand. -/
theorem connects_eq (h : Performs network resolver s call done) :
    let current := resolver.association.toList
    done.events.filterMap Event.server? = call.connects resolver.source.nameServer current ∧
      done.events.filterMap Event.closed? = call.closes resolver.source.nameServer current := by
  unfold association Call.connects Call.closes
  cases h with
  | idle hlookup => simp [hlookup]
  | unconfigured hlookup hserver hsession => simp [hlookup, hserver, hsession]
  | withdrawn hlookup hserver hsession =>
    simp [hlookup, hserver, hsession, Event.server?, Event.closed?]
  | refused hlookup hserver hsession =>
    simp [hlookup, hserver, hsession, Event.server?, Event.closed?]
  | opened hlookup hserver hsession _ _ hdone =>
    obtain ⟨hconnects, hcloses⟩ := connects_nothing hdone
    simp only [hlookup, hserver, hsession]
    exact ⟨congrArg _ hconnects, hcloses⟩
  | served hlookup hserver hsession hdone =>
    simp [hlookup, hserver, hsession, connects_nothing hdone]

end Performs

theorem orderly_history (network : Network σ) (resolver : Resolver) (s : σ) (calls : List Call) :
    Orderly resolver.association
      ((history network resolver s calls).flatMap (·.done.events))
      (outcome network resolver s calls).1.association := by
  induction calls generalizing resolver s with
  | nil => exact .nil
  | cons call calls ih => exact (performs_carry network resolver s call).orderly.append (ih _ _)

theorem orderly_history_afresh (network : Network σ) (s : σ) (calls : List Call)
    (hsession : resolver.session = none) :
    Orderly none ((history network resolver s calls).flatMap (·.done.events))
      (outcome network resolver s calls).1.association := by
  have h := orderly_history network resolver s calls
  rwa [association, hsession] at h

theorem source_outcome (network : Network σ) (resolver : Resolver) (s : σ) (calls : List Call) :
    (outcome network resolver s calls).1.source = configured resolver.source calls := by
  induction calls generalizing resolver s with
  | nil => rfl
  | cons call calls ih =>
    rw [outcome, ih, (performs_carry network resolver s call).source_eq]
    rfl

section
variable {earlier later : List (Performed σ)} {step : Performed σ}

/-- A call of a run finds the settings that the calls before it have made. -/
theorem source_at (h : history network resolver s calls = earlier ++ step :: later) :
    step.found.source = configured resolver.source (earlier.map Performed.call) := by
  rw [← source_outcome network resolver s, ← (history_at h).1]

/-- A call of a run finds open what the events before it have left open. -/
theorem association_at (h : history network resolver s calls = earlier ++ step :: later) :
    step.found.association.toList =
      openAfter resolver.association.toList (earlier.flatMap (·.done.events)) := by
  have hbefore := orderly_history network resolver s (earlier.map Performed.call)
  rw [← (history_split h).1, ← (history_at h).1] at hbefore
  exact hbefore.openAfter_eq.symm

end

theorem orderly_drop (resolver : Resolver) :
    Orderly resolver.association (resolver.drop.run network s).events none := by
  unfold drop association
  cases resolver.session with
  | none => exact .nil
  | some exchange => exact .closed .nil

/-- In a run with the drop that ends it, each association that is opened is closed before the next
is opened, and all use of an association falls in between. Nothing but a lookup connects or closes:
it connects once when a server is configured and nothing is open, and closes what is open when
none is. -/
theorem associations_paired (network : Network σ) (s : σ) (source : ConfigSource)
    (registry : Registry) (calls : List Call) :
    let resolver : Resolver := { source, registry }
    let run := history network resolver s calls
    let left := outcome network resolver s calls
    let events := run.flatMap (·.done.events) ++ (left.1.drop.run network left.2).events
    run.map Performed.call = calls ∧
    (∃ sockets : List Socket, events.filterMap Event.turn? =
      sockets.flatMap fun socket => [.opened socket, .closed socket]) ∧
    UsesOwn events ∧
    ∀ earlier step later, run = earlier ++ step :: later →
      let server := (configured source (earlier.map Performed.call)).nameServer
      let current := openAfter [] (earlier.flatMap (·.done.events))
      step.done.events.filterMap Event.server? = step.call.connects server current ∧
      step.done.events.filterMap Event.closed? = step.call.closes server current ∧
      (step.done.value.2.isConnected = true ↔
        openAfter current step.done.events ≠ []) := by
  intro resolver run left events
  have hevents : Orderly none events none :=
    (orderly_history network resolver s calls).append (orderly_drop left.1)
  refine ⟨map_call_history calls, ?_, hevents.usesOwn, ?_⟩
  · obtain ⟨sockets, hsockets⟩ := hevents.turns_eq
    exact ⟨sockets, by simpa using hsockets⟩
  · intro earlier step later hrun
    have hstep := performs_at hrun
    have hcurrent : step.found.association.toList =
        openAfter [] (earlier.flatMap (·.done.events)) := association_at hrun
    have hconnects := hstep.connects_eq
    rw [source_at hrun, hcurrent] at hconnects
    refine ⟨hconnects.1, hconnects.2, ?_⟩
    rw [isConnected_iff, ← hstep.orderly.openAfter_eq, hcurrent]

/-- Two servers with a withdrawal between them: the first association is closed by the lookup that
finds no server, and the second, which the next lookup opens, by the drop at the end. -/
theorem reopened_after_withdrawal :
    let first : Endpoint := .v4 ⟨10, 0, 0, 1⟩ 53
    let second : Endpoint := .v4 ⟨10, 0, 0, 2⟩ 53
    let source : ConfigSource := .shared (some (.withNameserver (.v4 ⟨10, 0, 0, 1⟩)))
    let lookup : Call := .lookupAddress [119, 119, 119] .inet
    let calls : List Call :=
      [lookup, .configure none, lookup, .configure (some (.withNameserver (.v4 ⟨10, 0, 0, 2⟩))),
        lookup]
    let s : ScriptedNetwork := { server := first, connections := [.ok [], .ok []] }
    let network := ScriptedNetwork.network
    let run := history network { source } s calls
    let left := outcome network { source } s calls
    let events := run.flatMap (·.done.events) ++ (left.1.drop.run network left.2).events
    events.filterMap Event.turn? = [.opened 0, .closed 0, .opened 1, .closed 1] ∧
    UsesOwn events ∧
    ∃ opening withdrawn closing replaced reopening,
      run = [opening, withdrawn, closing, replaced, reopening] ∧
      closing.done.events.filterMap Event.closed? = [0] ∧
      closing.done.value.2.isConnected = false ∧
      reopening.done.events.filterMap Event.server? = [second] ∧
      reopening.done.value.2.isConnected = true := by
  intro first second source lookup calls s network run left events
  obtain ⟨hcalls, -, hown, hsteps⟩ := associations_paired network s source {} calls
  obtain ⟨opening, withdrawn, closing, replaced, reopening, hrun⟩ :
      ∃ opening withdrawn closing replaced reopening,
        run = [opening, withdrawn, closing, replaced, reopening] := ⟨_, _, _, _, _, rfl⟩
  -- what is open before and after a step is found by running; what the step does then follows
  have hturns : events.filterMap Event.turn? = [.opened 0, .closed 0, .opened 1, .closed 1] := by
    decide +kernel
  have hopen : openAfter [] ((run.take 2).flatMap (·.done.events)) = [0] := by decide +kernel
  have hclosed : (run.take 3).getLast?.map (openAfter [0] ·.done.events) = some [] := by
    decide +kernel
  have hnone : openAfter [] ((run.take 4).flatMap (·.done.events)) = [] := by decide +kernel
  have hreopened : run.getLast?.map (openAfter [] ·.done.events) = some [1] := by decide +kernel
  replace hcalls : run.map Performed.call = calls := hcalls
  rw [hrun] at hopen hclosed hnone hreopened hcalls
  obtain ⟨hfirst, hclear, hsecond, hreplace, hthird⟩ : opening.call = lookup ∧
      withdrawn.call = .configure none ∧ closing.call = lookup ∧
      replaced.call = .configure (some (.withNameserver (.v4 ⟨10, 0, 0, 2⟩))) ∧
      reopening.call = lookup := by
    simpa [calls] using hcalls
  simp only [List.take_succ_cons, List.take_zero] at hopen hnone
  replace hclosed : openAfter [0] closing.done.events = [] := Option.some.inj hclosed
  replace hreopened : openAfter [] reopening.done.events = [1] := Option.some.inj hreopened
  obtain ⟨-, hcloses, hquiet⟩ := hsteps [opening, withdrawn] closing [replaced, reopening] hrun
  obtain ⟨hconnects, -, hconnected⟩ :=
    hsteps [opening, withdrawn, closing, replaced] reopening [] hrun
  simp only [List.map_cons, List.map_nil, hfirst, hclear, hsecond, hreplace, hthird, hopen, hnone,
    hclosed, hreopened] at hcloses hquiet hconnects hconnected
  refine ⟨hturns, hown, opening, withdrawn, closing, replaced, reopening, hrun, hcloses, ?_,
    hconnects, ?_⟩
  · simpa using hquiet
  · exact hconnected.mpr (List.cons_ne_nil 1 [])

end StubDns.Resolver
