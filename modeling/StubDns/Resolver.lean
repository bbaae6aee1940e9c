import StubDns.Exchange
import StubDns.Registry
import StubDns.Settings
import StubDns.Text

/-! The resolver: one association at a time, opened by the first lookup that needs it and closed by
the first lookup that finds no server configured. Its runs mix lookups with settings that change. -/
namespace StubDns

structure Resolver where
  source : ConfigSource
  registry : Registry := {}
  session : Option Exchange := none
  deriving DecidableEq

namespace Resolver
variable {α : Type}

def isConnected (resolver : Resolver) : Bool := resolver.session.isSome

/-- The exchange that serves the next lookup. An open one serves on whatever the settings have
become, as long as they name a server; a new one takes the settings of this moment. -/
def setUp (source : ConfigSource) : Option Exchange → Dialogue (Except ResolveError Exchange)
  | some exchange =>
    match source.nameServer with
    | some _ => return .ok exchange
    | none => do
      exchange.close
      return .error .notConfigured
  | none =>
    match source.nameServer with
    | none => return .error .notConfigured
    | some server => do
      match ← Dialogue.request (.connect server) with
      | .error reason => return .error reason
      | .ok socket =>
        let lastId ← Dialogue.request .drawId
        let suffix := source.searchSuffix.map fun text => Utf8.encode text.toList
        return .ok { socket, server, suffix, policy := source.retryPolicy, lastId }

/-- Runs one lookup over the exchange that serves it. -/
def withExchange (resolver : Resolver) (lookup : Exchange → Dialogue (α × Exchange)) :
    Dialogue (Except ResolveError α × Resolver) := do
  match ← setUp resolver.source resolver.session with
  | .error reason => return (.error reason, { resolver with session := none })
  | .ok exchange =>
    let (value, exchange) ← lookup exchange
    return (.ok value, { resolver with session := some exchange })

/-- The registry object of an address. Nothing is sent. -/
def hostByAddress (resolver : Resolver) (address : IPv4) (scopeId : UInt32) :
    Registered × Resolver :=
  let (object, registry) := resolver.registry.hostByAddress address scopeId
  (object, { resolver with registry })

/-- The registry object of a host's address, on any interface. -/
def lookupAddress (resolver : Resolver) (hostname : Bytes) (family : AddressFamily) :
    Dialogue (Except ResolveError (Option Registered) × Resolver) := do
  if family ≠ .inet then return (.error .unsupportedFamily, resolver)
  match ← resolver.withExchange (·.lookupAddress hostname) with
  | (.error reason, resolver) => return (.error reason, resolver)
  | (.ok none, resolver) => return (.ok none, resolver)
  | (.ok (some address), resolver) =>
    let (object, resolver) := resolver.hostByAddress address Registry.anyScope
    return (.ok (some object), resolver)

/-- The host name of an address, decoded into `out`; gives its length. -/
def lookupName {capacity : Nat} (resolver : Resolver) (address : IPAddress)
    (out : Buffer capacity) :
    Dialogue (Except ResolveError (Option Nat) × Buffer capacity × Resolver) := do
  if capacity < Name.sizeMax then
    return (.error (.bufferTooSmall capacity Name.sizeMax), out, resolver)
  match address with
  | .v6 _ => return (.error .unsupportedFamily, out, resolver)
  | .v4 address =>
    let lookup (exchange : Exchange) : Dialogue ((Option Nat × Buffer capacity) × Exchange) := do
      let (answer, out, exchange) ← exchange.lookupName address out
      return ((answer, out), exchange)
    match ← resolver.withExchange lookup with
    | (.error reason, resolver) => return (.error reason, out, resolver)
    | (.ok (answer, out), resolver) => return (.ok answer, out, resolver)

/-- The host name of an address as text, with replacement characters for what is not UTF-8. -/
def lookupHostname (resolver : Resolver) (address : IPAddress) :
    Dialogue (Except ResolveError (Option String) × Resolver) := do
  let (result, out, resolver) ← resolver.lookupName address (Buffer.zero Name.sizeMax)
  let name (size : Nat) := String.ofList (Utf8.decodeLossy (out.bytes.take size))
  return (result.map (·.map name), resolver)

/-- Ends the association that may be open. -/
def drop (resolver : Resolver) : Dialogue Unit :=
  match resolver.session with
  | some exchange => exchange.close
  | none => return ()

inductive Step
  /-- Gives the source other settings, or withdraws them. -/
  | configure (settings : Option Settings)
  | lookupAddress (hostname : Bytes) (family : AddressFamily)
  | lookupName (address : IPAddress) (capacity : Nat)
  | lookupHostname (address : IPAddress)
  | hostByAddress (address : IPv4) (scopeId : UInt32)
  deriving DecidableEq

/-- What a step gives back. A decoded name stands at the front of the buffer. -/
inductive Answer
  | configured
  | host (result : Except ResolveError (Option Registered))
  | name (result : Except ResolveError (Option Nat)) (out : Bytes)
  | hostname (result : Except ResolveError (Option String))

def perform (resolver : Resolver) : Step → Dialogue (Answer × Resolver)
  | .configure settings =>
    return (.configured, { resolver with source := resolver.source.replace settings })
  | .lookupAddress hostname family => do
    let (result, resolver) ← resolver.lookupAddress hostname family
    return (.host result, resolver)
  | .lookupName address capacity => do
    let (result, out, resolver) ← resolver.lookupName address (Buffer.zero capacity)
    return (.name result out.bytes, resolver)
  | .lookupHostname address => do
    let (result, resolver) ← resolver.lookupHostname address
    return (.hostname result, resolver)
  | .hostByAddress address scopeId =>
    let (object, resolver) := resolver.hostByAddress address scopeId
    return (.host (.ok (some object)), resolver)

/-- The answers to all steps in order, and the resolver after the last. -/
def performAll (resolver : Resolver) : List Step → Dialogue (List Answer × Resolver)
  | [] => return ([], resolver)
  | step :: steps => do
    let (answer, resolver) ← resolver.perform step
    let (answers, resolver) ← resolver.performAll steps
    return (answer :: answers, resolver)

end Resolver
end StubDns
