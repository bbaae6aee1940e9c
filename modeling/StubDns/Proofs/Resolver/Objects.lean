import StubDns.Proofs.Registry
import StubDns.Proofs.Resolver.Calls
import StubDns.Script

/-! The objects that a resolver hands out, over runs of any calls. -/
namespace StubDns.Resolver
open Registry (Key)

variable {σ : Type} {network : Network σ} {s : σ} {resolver : Resolver} {call : Call}
  {calls : List Call} {links : List Link} {keys : List Key}

/-- What a call asks the registry for. A forward lookup asks for the address that its exchange has
found, on any interface. -/
def Call.key? (network : Network σ) (resolver : Resolver) (s : σ) : Call → Option Key
  | .hostByAddress address scopeId => some (address, scopeId)
  | .lookupAddress hostname .inet =>
    match ((resolver.withExchange (·.lookupAddress hostname)).run network s).value.1 with
    | .ok (some address) => some (address, Registry.anyScope)
    | _ => none
  | _ => none

/-- The object that an answer hands out. -/
def Answer.object? : Answer → Option Registered
  | .host (.ok object) => object
  | _ => none

namespace Performed

def key? (network : Network σ) (step : Performed σ) : Option Key :=
  step.call.key? network step.found step.start

def object? (step : Performed σ) : Option Registered := step.done.value.1.object?

end Performed

/-- A call serves a key when it hands out the key's object, if there is a key, and leaves the
registry in which that key was asked for too. -/
structure Serves (links : List Link) (keys : List Key) (key? : Option Key)
    (done : Answer × Resolver) : Prop where
  object : done.1.object? = key?.map (Registry.objectFor links (keys ++ key?.toList))
  registry : done.2.registry = .after links (keys ++ key?.toList)

theorem serves_none {done : Answer × Resolver} (hobject : done.1.object? = none)
    (hregistry : done.2.registry = .after links keys) : Serves links keys none done := by
  refine ⟨hobject, ?_⟩
  rw [Option.toList, List.append_nil]
  exact hregistry

/-- What serves a lookup has nothing to do with the registry. -/
theorem registry_withExchange {α : Type} (network : Network σ) (resolver : Resolver) (s : σ)
    (ask : Exchange → Dialogue (α × Exchange)) :
    ((resolver.withExchange ask).run network s).value.2.registry = resolver.registry := by
  rw [run_withExchange]
  cases hready : ((setUp resolver.source resolver.session).run network s).value with
  | error reason => simp [hready]
  | ok exchange => simp [hready]

theorem serves_lookupAddress (h : resolver.registry = .after links keys) (hostname : Bytes) :
    Serves links keys ((Call.lookupAddress hostname .inet).key? network resolver s)
      ((resolver.carry (.lookupAddress hostname .inet)).run network s).value := by
  have hregistry := registry_withExchange network resolver s (·.lookupAddress hostname)
  rw [h] at hregistry
  simp only [carry, perform, Resolver.lookupAddress, ne_eq, not_true_eq_false, if_false,
    Dialogue.run_bind, Call.key?]
  generalize (resolver.withExchange (·.lookupAddress hostname)).run network s = found at hregistry ⊢
  obtain ⟨⟨result, left⟩, events, t⟩ := found
  dsimp only at hregistry ⊢
  cases result with
  | error reason => exact serves_none rfl hregistry
  | ok found? =>
    cases found? with
    | none => exact serves_none rfl hregistry
    | some address =>
      have hserved := Registry.hostByAddress_after links keys (address, Registry.anyScope)
      rw [← hregistry] at hserved
      simp only [hostByAddress, hserved]
      exact ⟨rfl, rfl⟩

/-- The name of an address is no request. -/
theorem serves_conclude_name {lookup : Exchange.Call} {target : IPv4} {capacity : Nat}
    {out : Buffer capacity} {exchange : Exchange} (h : resolver.registry = .after links keys)
    (hlookup : lookup = .name target out) :
    Serves links keys none (call.conclude resolver ((exchange.carry lookup).run network s).value) := by
  obtain ⟨result, rest, hanswer⟩ : ∃ result rest,
      ((exchange.carry lookup).run network s).value.1 = .name result rest := by
    subst hlookup
    simp only [Exchange.carry, Dialogue.run_bind]
    exact ⟨_, _, rfl⟩
  unfold Call.conclude
  rw [hanswer]
  cases call <;> exact serves_none rfl h

theorem object?_failed (call : Call) (reason : ResolveError) :
    (call.failed reason).object? = none := by
  cases call <;> rfl

/-- Only a forward lookup is one of an address. -/
theorem Call.name_of_lookup? {lookup : Exchange.Call} (h : call.lookup? = some lookup)
    (hforward : ∀ hostname, call ≠ .lookupAddress hostname .inet) :
    ∃ (target : IPv4) (capacity : Nat) (out : Buffer capacity), lookup = .name target out := by
  cases call with
  | configure | hostByAddress => cases h
  | lookupAddress hostname family =>
    cases family with
    | inet => exact absurd rfl (hforward hostname)
    | inet6 | unspec => cases h
  | @lookupName address capacity out =>
    cases address with
    | v6 target => cases h
    | v4 target =>
      rw [lookup?] at h
      split at h
      · cases h
      · exact ⟨target, capacity, out, (Option.some.inj h).symm⟩
  | lookupHostname address =>
    cases address with
    | v6 target => cases h
    | v4 target => exact ⟨target, _, _, (Option.some.inj h).symm⟩

/-- A call that is no request hands out nothing, and leaves the registry alone. -/
theorem serves_other (h : resolver.registry = .after links keys)
    (hforward : ∀ hostname, call ≠ .lookupAddress hostname .inet)
    (hdirect : ∀ address scopeId, call ≠ .hostByAddress address scopeId) :
    Serves links keys none ((resolver.carry call).run network s).value := by
  have hcall := performs_carry network resolver s call
  generalize (resolver.carry call).run network s = done at hcall ⊢
  cases hcall with
  | idle =>
    cases call with
    | hostByAddress address scopeId => exact absurd rfl (hdirect address scopeId)
    | configure | lookupAddress | lookupName | lookupHostname => exact serves_none rfl h
  | unconfigured | withdrawn | refused => exact serves_none (object?_failed _ _) h
  | opened hlookup _ _ _ _ hdone | served hlookup _ _ hdone =>
    obtain ⟨target, capacity, out, hname⟩ := Call.name_of_lookup? hlookup hforward
    rw [hdone]
    exact serves_conclude_name h hname

/-- Every call serves the key that it asks for. -/
theorem serves_carry (h : resolver.registry = .after links keys) (call : Call) :
    Serves links keys (call.key? network resolver s)
      ((resolver.carry call).run network s).value := by
  cases call with
  | hostByAddress address scopeId =>
    have hserved := Registry.hostByAddress_after links keys (address, scopeId)
    rw [← h] at hserved
    simp only [carry, perform, hostByAddress, hserved]
    exact ⟨rfl, rfl⟩
  | lookupAddress hostname family =>
    cases family with
    | inet => exact serves_lookupAddress h hostname
    | inet6 | unspec => exact serves_other h (by simp) (by simp)
  | configure | lookupName | lookupHostname => exact serves_other h (by simp) (by simp)

/-- After a run, the registry is the one in which all keys of the run were asked for. -/
theorem registry_outcome (network : Network σ) (s : σ) (calls : List Call)
    (h : resolver.registry = .after links keys) :
    (outcome network resolver s calls).1.registry =
      .after links (keys ++ (history network resolver s calls).filterMap (·.key? network)) := by
  induction calls generalizing resolver s keys with
  | nil =>
    rw [history, List.filterMap_nil, List.append_nil]
    exact h
  | cons call calls ih =>
    let step : Performed σ := ⟨resolver, s, call, (resolver.carry call).run network s⟩
    have hstep : step.done.value.2.registry = .after links (keys ++ (step.key? network).toList) :=
      (serves_carry h call).registry
    have hrest : (outcome network resolver s (call :: calls)).1.registry = _ := ih _ hstep
    have hhistory : history network resolver s (call :: calls) =
        step :: history network step.done.value.2 step.done.network calls := rfl
    rw [hrest, hhistory, List.append_assoc]
    cases hkey : step.key? network with
    | none => rw [List.filterMap_cons_none hkey, Option.toList, List.nil_append]
    | some key => rw [List.filterMap_cons_some hkey, Option.toList, List.singleton_append]

/-- A call of a run hands out the object that stands for its key among all keys of the run, whether
they were asked for before or are asked for later. -/
theorem object?_of_history (h : resolver.registry = .after links []) {step : Performed σ}
    (hstep : step ∈ history network resolver s calls) :
    let keys := (history network resolver s calls).filterMap (·.key? network)
    step.object? = (step.key? network).map (Registry.objectFor links keys) := by
  intro keys
  obtain ⟨earlier, later, hrun⟩ := List.append_of_mem hstep
  have hfound := registry_outcome network s (earlier.map Performed.call) h
  rw [← (history_at hrun).1, ← (history_split hrun).1, List.nil_append] at hfound
  rw [Performed.object?, (history_at hrun).2.1, (serves_carry hfound step.call).object,
    ← Performed.key?]
  cases hkey : step.key? network with
  | none => rfl
  | some key =>
    have hkeys : keys = (earlier.filterMap (·.key? network) ++ [key]) ++
        later.filterMap (·.key? network) := by
      simp only [keys, hrun, List.filterMap_append, List.filterMap_cons_some hkey,
        List.append_assoc, List.singleton_append]
    have hmem : key ∈ earlier.filterMap (·.key? network) ++ [key] :=
      List.mem_append_right _ (List.mem_singleton_self key)
    rw [hkeys, Option.map_some, Option.map_some, Registry.objectFor_append hmem]
    rfl

/-- Over a run, every request is answered with the host that the links alone make of its address and
scope, two requests are given the same object just when they ask for the same address in the same
scope, and the registry holds one entry for each pair that was asked for. Entries that are there
stay as they are. -/
theorem requests_share_objects (network : Network σ) (s : σ) (source : ConfigSource)
    (links : List Link) (calls : List Call) :
    let resolver : Resolver := { source, registry := { links } }
    let run := history network resolver s calls
    (∀ step ∈ run, step.object?.map Registered.host =
      (step.key? network).map fun key => Registry.classify links key.1 key.2) ∧
    (∀ step ∈ run, ∀ other ∈ run, ∀ object object',
      step.object? = some object → other.object? = some object' →
        (object.number = object'.number ↔ step.key? network = other.key? network)) ∧
    ∀ before later, calls = before ++ later →
      let keys := (history network resolver s before).filterMap (·.key? network)
      let left := (outcome network resolver s before).1.registry
      left.size = keys.toFinset.card ∧ left.links = links ∧
        left.entries <+: (outcome network resolver s calls).1.registry.entries := by
  intro resolver run
  have hfresh : resolver.registry = .after links [] := (Registry.after_nil links).symm
  have hobject : ∀ step ∈ run, step.object? = (step.key? network).map _ :=
    fun step hstep => object?_of_history hfresh hstep
  refine ⟨?_, ?_, ?_⟩
  · intro step hstep
    rw [hobject step hstep, Option.map_map]
    rfl
  · intro step hstep other hother object object' hgiven hgiven'
    rw [hobject step hstep] at hgiven
    rw [hobject other hother] at hgiven'
    obtain ⟨key, hkey, rfl⟩ := Option.map_eq_some_iff.mp hgiven
    obtain ⟨key', hkey', rfl⟩ := Option.map_eq_some_iff.mp hgiven'
    have hmem : key ∈ run.filterMap (·.key? network) :=
      List.mem_filterMap.mpr ⟨step, hstep, hkey⟩
    rw [Registry.objectFor_number_inj hmem, hkey, hkey', Option.some.injEq]
  · rintro before later rfl keys left
    have hleft : left = .after links keys := registry_outcome network s before hfresh
    have hend := registry_outcome network s (before ++ later) hfresh
    rw [hleft, hend, history_append, List.filterMap_append]
    exact ⟨Registry.size_after links keys, rfl, Registry.entries_after_prefix links keys _⟩

/-- A neighbour that is asked for on any interface and on its own, and then found by its name: the
lookup is given the object of the request on any interface. -/
theorem object_per_interface :
    let neighbour : IPv4 := ⟨10, 1, 2, 3⟩
    let server : Endpoint := .v4 ⟨192, 0, 2, 53⟩ 53
    let source : ConfigSource := .fixed (some server) none
    let links : List Link := [⟨{ address := ⟨10, 0, 0, 0⟩, prefixLen := 8 }, 2⟩]
    let tail : Bytes := [192, 12, 0, 1, 0, 1, 0, 0, 0, 60, 0, 4, 10, 1, 2, 3]
    let s : ScriptedNetwork := { server, connections := [.ok [.reply { tail } none]] }
    let calls : List Call :=
      [.hostByAddress neighbour 0, .hostByAddress neighbour 2, .lookupAddress [110] .inet]
    let network := ScriptedNetwork.network
    let resolver : Resolver := { source, registry := { links } }
    ∃ anywhere onLink found first second third,
      history network resolver s calls = [anywhere, onLink, found] ∧
      anywhere.object? = some first ∧ onLink.object? = some second ∧ found.object? = some third ∧
      first.number = third.number ∧ first.number ≠ second.number ∧
      third.host = { address := neighbour, state := .onLink, scopeId := 2, prefixLen := some 8 } ∧
      (outcome network resolver s calls).1.registry.size = 2 := by
  intro neighbour server source links tail s calls network resolver
  obtain ⟨hhosts, hnumbers, hsizes⟩ := requests_share_objects network s source links calls
  let run := history network resolver s calls
  obtain ⟨anywhere, onLink, found, hrun⟩ : ∃ anywhere onLink found,
      run = [anywhere, onLink, found] := ⟨_, _, _, rfl⟩
  have hkeys : run.map (·.key? network) =
      [some (neighbour, 0), some (neighbour, 2), some (neighbour, 0)] := by
    decide +kernel
  have hgiven : run.map (·.object?.isSome) = [true, true, true] := by decide +kernel
  have hcard : (run.filterMap (·.key? network)).toFinset.card = 2 := by decide +kernel
  have hmem : anywhere ∈ run ∧ onLink ∈ run ∧ found ∈ run := by simp [hrun]
  rw [hrun] at hkeys hgiven
  simp only [List.map_cons, List.map_nil, List.cons.injEq, and_true, Option.isSome_iff_exists]
    at hkeys hgiven
  obtain ⟨hanywhere, honLink, hfound⟩ := hkeys
  obtain ⟨⟨first, hfirst⟩, ⟨second, hsecond⟩, ⟨third, hthird⟩⟩ := hgiven
  have hclassified : Registry.classify links neighbour 0 =
      { address := neighbour, state := .onLink, scopeId := 2, prefixLen := some 8 } := by
    decide
  have hhost := hhosts found hmem.2.2
  rw [hthird, hfound] at hhost
  refine ⟨anywhere, onLink, found, first, second, third, hrun, hfirst, hsecond, hthird, ?_, ?_,
    (Option.some.inj hhost).trans hclassified, ?_⟩
  · rw [hnumbers anywhere hmem.1 found hmem.2.2 first third hfirst hthird, hanywhere, hfound]
  · rw [ne_eq, hnumbers anywhere hmem.1 onLink hmem.2.1 first second hfirst hsecond, hanywhere,
      honLink]
    decide
  · rw [(hsizes calls [] (List.append_nil calls).symm).1]
    exact hcard

end StubDns.Resolver
