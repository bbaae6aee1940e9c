import StubDns.CommandLine.Run
import StubDns.Proofs.Exchange.Writes
import StubDns.Proofs.Links
import StubDns.Proofs.Resolver.Lifecycle
import StubDns.Script

/-! A configuration that is accepted can be run: nothing that validation has let through fails later,
and every lookup keeps within the bounds that were validated. -/
namespace StubDns

/-- The search suffix in the bytes that are sent. -/
def ConfigSource.suffix (source : ConfigSource) : Option Bytes :=
  source.searchSuffix.map fun text => Utf8.encode text.toList

namespace Resolver

variable {σ : Type} {network : Network σ} {s : σ} {resolver : Resolver} {call : Call}
  {calls : List Call} {done : Finished σ (Answer × Resolver)} {lookup : Exchange.Call}
  {terms : ConfigSource} {server : Endpoint} {step : Performed σ}

/-- The settings are `terms`, and what is open was opened on them. -/
structure OnTerms (terms : ConfigSource) (resolver : Resolver) : Prop where
  configured : resolver.source = terms
  opened : ∀ exchange, resolver.session = some exchange →
    ∃ server socket lastId, exchange.SameTerms (terms.exchange server socket lastId)

/-- A call that keeps the settings as they are leaves what is open on its terms. -/
theorem Performs.onTerms (h : Performs network resolver s call done)
    (hterms : resolver.OnTerms terms) (hkeeps : call.configures terms = terms) :
    done.value.2.OnTerms terms := by
  refine ⟨?_, ?_⟩
  · rw [h.source_eq, hterms.configured]
    exact hkeeps
  · intro exchange hexchange
    cases h with
    | idle =>
      rw [call.settle_session] at hexchange
      exact hterms.opened exchange hexchange
    | unconfigured | withdrawn | refused => cases hexchange
    | @opened lookup server socket lastId _ u _ _ _ _ _ _ hdone =>
      obtain rfl := Option.some.inj hexchange
      obtain rfl := hterms.configured
      have hsame := (Exchange.run_carry_sameTerms network u
        (resolver.source.exchange server socket lastId) lookup).2
      rw [hdone]
      exact ⟨server, socket, lastId, hsame⟩
    | @served lookup _ found _ _ _ hsession hdone =>
      obtain rfl := Option.some.inj hexchange
      obtain ⟨server, socket, lastId, hfound⟩ := hterms.opened found hsession
      have hsame := (Exchange.run_carry_sameTerms network s found lookup).2
      rw [hdone]
      exact ⟨server, socket, lastId, hsame.trans hfound⟩

theorem onTerms_of_history (hterms : resolver.OnTerms terms)
    (hkeeps : ∀ call ∈ calls, call.configures terms = terms)
    (hstep : step ∈ history network resolver s calls) :
    step.found.OnTerms terms ∧ Performs network step.found step.start step.call step.done := by
  induction calls generalizing resolver s with
  | nil => cases hstep
  | cons call calls ih =>
    have hcall := performs_carry network resolver s call
    rcases List.mem_cons.mp hstep with rfl | hstep
    · exact ⟨hterms, hcall⟩
    · obtain ⟨hfirst, hrest⟩ := List.forall_mem_cons.mp hkeeps
      exact ih (hcall.onTerms hterms hfirst) hrest hstep

/-- What an exchange writes that was opened on `terms`. -/
theorem written_on_terms {exchange : Exchange} {socket : Socket} {lastId : UInt16}
    (hsame : exchange.SameTerms (terms.exchange server socket lastId))
    (hencodable : (lookup.question terms.suffix).Encodable)
    (hattempts : 1 ≤ terms.retryPolicy.maxAttempts.toNat) :
    ∃ id n, 1 ≤ n ∧ n ≤ terms.retryPolicy.maxAttempts.toNat ∧
      ((exchange.carry lookup).run network s).events.filterMap Event.written? =
        List.replicate n ((lookup.question terms.suffix).bytes id) := by
  have hsuffix : exchange.suffix = terms.suffix := hsame.suffix
  have hpolicy : exchange.policy = terms.retryPolicy := hsame.policy
  rw [← hsuffix] at hencodable ⊢
  rw [← hpolicy] at hattempts ⊢
  obtain ⟨n, hpos, hle, hwritten⟩ := Exchange.written_of_lookup network s exchange lookup hencodable
    hattempts
  exact ⟨exchange.lastId + 1, n, hpos, hle, hwritten⟩

/-- A lookup that has an association writes its query as often as the settings allow. -/
theorem Performs.written (h : Performs network resolver s call done)
    (hterms : resolver.OnTerms terms) (hlookup : call.lookup? = some lookup)
    (hserver : terms.nameServer = some server)
    (hconnect : ∀ reason, ⟨.connect server, .error reason⟩ ∉ done.events)
    (hencodable : (lookup.question terms.suffix).Encodable)
    (hattempts : 1 ≤ terms.retryPolicy.maxAttempts.toNat) :
    ∃ id n, 1 ≤ n ∧ n ≤ terms.retryPolicy.maxAttempts.toNat ∧
      done.events.filterMap Event.written? =
        List.replicate n ((lookup.question terms.suffix).bytes id) := by
  obtain rfl := hterms.configured
  cases h with
  | idle hidle => cases hidle.symm.trans hlookup
  | unconfigured _ hnone | withdrawn _ hnone => cases hnone.symm.trans hserver
  | refused _ hother =>
    obtain rfl := Option.some.inj (hother.symm.trans hserver)
    exact absurd List.mem_cons_self (hconnect _)
  | opened hcall hother _ _ _ hdone =>
    obtain rfl := Option.some.inj (hcall.symm.trans hlookup)
    rw [hdone]
    exact written_on_terms ⟨rfl, rfl, rfl, rfl⟩ hencodable hattempts
  | served hcall _ hsession hdone =>
    obtain rfl := Option.some.inj (hcall.symm.trans hlookup)
    obtain ⟨_, _, _, hsame⟩ := hterms.opened _ hsession
    rw [hdone]
    exact written_on_terms hsame hencodable hattempts

end Resolver

/-- The port of a server. -/
def Endpoint.port : Endpoint → UInt16
  | .v4 _ port | .v6 _ port _ => port

theorem Settings.port_of_nameServer {settings : Settings} {server : Endpoint}
    (h : settings.nameServer = some server) : server.port = settings.port := by
  obtain ⟨address, -, rfl⟩ := Option.map_eq_some_iff.mp h
  cases address <;> rfl

/-- Every value that is given stands in the configuration. -/
structure Overrides.Hold (overrides : Overrides) (config : Config) : Prop where
  nameserver : ∀ address, overrides.nameserver = some address →
    config.resolver.nameserver = some address
  port : ∀ port, overrides.port = some port → config.resolver.port = port
  search : ∀ text, overrides.search = some text → config.resolver.search = some text
  logLevel : ∀ level, overrides.logLevel = some level → config.logging.level = level

theorem Overrides.hold_apply (overrides : Overrides) (config : Config) :
    overrides.Hold (config.apply overrides) := by
  constructor <;>
  · intro value hvalue
    simp [Config.apply, hvalue]

namespace Config

variable {config : Config} {overrides : Overrides} {files : FileSystem} {path : Option String}

/-- Nothing in the configuration keeps a lookup from being made. -/
structure Runnable (config : Config) : Prop where
  /-- The links that were validated are the ones that are attached. -/
  links : ∃ attached, CommandLine.resolver config =
      .ok { source := .shared (some config.resolver), registry := { links := attached } } ∧
    List.Forall₂ LinkSettings.Attaches config.resolver.links attached
  server : ∀ server, config.resolver.nameServer = some server → server.port ≠ 0
  suffix : ∀ text, config.resolver.search = some text →
    text ≠ "" ∧ config.resolver.searchSuffix = some text
  /-- A lookup in a run on these settings, whatever else is in the run, and on any network. -/
  lookups : ∀ {σ : Type} (network : Network σ) (s : σ) (registry : Registry)
    (calls : List Resolver.Call),
    (∀ current, Resolver.Call.configure current ∈ calls → current = some config.resolver) →
    ∀ step ∈ Resolver.history network
        { source := .shared (some config.resolver), registry } s calls,
    ∀ lookup server, step.call.lookup? = some lookup →
      config.resolver.nameServer = some server →
      (∀ reason, ⟨.connect server, .error reason⟩ ∉ step.done.events) →
      let question := lookup.question
        (config.resolver.searchSuffix.map fun text => Utf8.encode text.toList)
      question.Encodable →
      ∃ id n, 1 ≤ n ∧ n ≤ 16 ∧
        step.done.events.filterMap Event.written? = List.replicate n (question.bytes id)

theorem validate_ok_iff : config.validate = .ok () ↔ config.resolver.validate = .ok () := by
  unfold validate
  cases config.resolver.validate with
  | error reason => exact ⟨nofun, nofun⟩
  | ok _ => exact ⟨fun _ => rfl, fun _ => rfl⟩

theorem hold_of_load (h : load files path overrides = .ok config) : overrides.Hold config := by
  obtain ⟨found, -, happly⟩ := except_bind_ok_iff.mp h
  obtain rfl := Except.ok.inj happly
  exact overrides.hold_apply found

theorem runnable_of_validate (h : config.validate = .ok ()) : config.Runnable := by
  obtain ⟨hport, ⟨hleast, hmost⟩, -, hsearch, hlinks⟩ :=
    Settings.validate_ok_iff.mp (validate_ok_iff.mp h)
  constructor
  case links =>
    obtain ⟨attached, hattached, hall⟩ := Registry.addLinks_of_valid hlinks {}
    refine ⟨attached, ?_, hall⟩
    rw [CommandLine.resolver, Registry.ofLinks, hattached]
    rfl
  case server =>
    intro server hserver
    rw [Settings.port_of_nameServer hserver]
    exact hport
  case suffix =>
    intro text htext
    obtain ⟨hne, -⟩ := hsearch text htext
    refine ⟨hne, ?_⟩
    rw [Settings.searchSuffix, htext]
    exact Option.filter_some_pos (decide_eq_true hne)
  case lookups =>
    intro σ network s registry calls hkeeps step hstep lookup server hlookup hserver hconnect
      question hencodable
    have hfresh : Resolver.OnTerms (.shared (some config.resolver))
        { source := .shared (some config.resolver), registry } := ⟨rfl, nofun⟩
    have hsame : ∀ call ∈ calls, call.configures (.shared (some config.resolver)) =
        .shared (some config.resolver) := by
      intro call hcall
      cases call with
      | configure current =>
        obtain rfl := hkeeps current hcall
        rfl
      | _ => rfl
    obtain ⟨hterms, hperforms⟩ := Resolver.onTerms_of_history hfresh hsame hstep
    obtain ⟨id, n, hpos, hle, hwritten⟩ :=
      hperforms.written hterms hlookup hserver hconnect hencodable hleast
    exact ⟨id, n, hpos, Nat.le_trans hle hmost, hwritten⟩

/-- A configuration that is loaded and accepted can be run, with the values that were given beside
the files. -/
theorem accepted_config_runs (hload : load files path overrides = .ok config)
    (hvalid : config.validate = .ok ()) : overrides.Hold config ∧ config.Runnable :=
  ⟨hold_of_load hload, runnable_of_validate hvalid⟩

/-- A link with a sign before its number of bits and with host bits, and the most attempts there may
be. -/
theorem signed_prefix_runs :
    let text := "[resolver]\nnameserver = \"192.0.2.1\"\nattempts = 16\n" ++
      "[[resolver.links]]\nnetwork = \"10.1.2.3/+8\"\nscope_id = 3\n"
    let files : FileSystem := fun path =>
      if path = localPath then .ok (.file (Utf8.encode text.toList)) else .error .missing
    let overrides : Overrides := { port := some 5353, search := some "example.org" }
    let config : Config :=
      { resolver :=
          { nameserver := some (.v4 ⟨192, 0, 2, 1⟩), port := 5353, search := some "example.org",
            attempts := 16, links := [⟨"10.1.2.3/+8", 3⟩] } }
    let resolver : Resolver :=
      { source := .shared (some config.resolver),
        registry := { links := [⟨⟨⟨10, 1, 2, 3⟩, 8, by decide⟩, 3⟩] } }
    let silent : ScriptedNetwork := { server := .v4 ⟨192, 0, 2, 1⟩ 5353 }
    let calls : List Resolver.Call := [.lookupAddress [97] .inet]
    load files none overrides = .ok config ∧ config.validate = .ok () ∧
    overrides.Hold config ∧ config.Runnable ∧
    CommandLine.resolver config = .ok resolver ∧
    (Resolver.history ScriptedNetwork.network resolver silent calls).map
      (fun step => (step.done.events.filterMap Event.written?).length) = [16] := by
  intro text files overrides config resolver silent calls
  have hload : load files none overrides = .ok config := by decide +kernel
  have hvalid : config.validate = .ok () := by decide +kernel
  have hresolver : CommandLine.resolver config = .ok resolver := by decide +kernel
  obtain ⟨hhold, hruns⟩ := accepted_config_runs hload hvalid
  exact ⟨hload, hvalid, hhold, hruns, hresolver, by decide +kernel⟩

end Config
end StubDns
