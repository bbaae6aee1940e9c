import StubDns.Address.Endpoint
import StubDns.Retry

/-! Resolver settings, what makes them usable, and where a resolver takes them from each time it
opens an association. -/
namespace StubDns

/-- An attached network as it is configured, not yet read. -/
structure LinkSettings where
  network : String
  scopeId : UInt32 := 1
  deriving DecidableEq

structure Settings where
  nameserver : Option IPAddress := none
  port : UInt16 := 53
  search : Option String := none
  attempts : UInt32 := 4
  minWaitMs : UInt64 := 1000
  links : List LinkSettings := []
  deriving DecidableEq

/-- The first thing wrong with settings. -/
inductive SettingsError
  | zeroPort
  | attempts (count : UInt32)
  | zeroWait
  | suffix (text : String)
  | linkNetwork (network : String)
  | linkScope (network : String)
  deriving DecidableEq, Repr

def SettingsError.message : SettingsError → String
  | .zeroPort => "Name server port cannot be 0"
  | .attempts count => s!"attempts must be between 1 and 16, got {count.toNat}"
  | .zeroWait => "min_wait_ms must be greater than 0"
  | .suffix text => s!"Invalid search suffix '{text}'"
  | .linkNetwork network => s!"Invalid link network '{network}'"
  | .linkScope network => s!"Link {network} needs a non-zero scope_id"

/-- The address before the slash and the number of bits behind it, up to 32. -/
def LinkSettings.cidr? (link : LinkSettings) : Option (IPv4 × Nat) :=
  let text := link.network.toList
  match text.dropWhile (· ≠ '/') with
  | [] => none
  | _ :: bits => do
    return (← IPv4.parse? (text.takeWhile (· ≠ '/')), ← unsigned? 33 bits)

def LinkSettings.validate (link : LinkSettings) : Except SettingsError Unit := do
  if link.cidr?.isNone then throw (.linkNetwork link.network)
  if link.scopeId = 0 then throw (.linkScope link.network)

namespace Settings

/-- The longest search suffix, in bytes. -/
def suffixMax : Nat := 253

def maxAttempts : Nat := 16

def withNameserver (address : IPAddress) : Settings := { nameserver := some address }

/-- Where queries go. -/
def nameServer (settings : Settings) : Option Endpoint :=
  settings.nameserver.map (Endpoint.ofAddress settings.port)

/-- An empty suffix is none. -/
def searchSuffix (settings : Settings) : Option String := settings.search.filter (· ≠ "")

def retryPolicy (settings : Settings) : RetryPolicy :=
  { maxAttempts := settings.attempts, minWait := Duration.ofMillis settings.minWaitMs }

def validate (settings : Settings) : Except SettingsError Unit := do
  if settings.port = 0 then throw .zeroPort
  if settings.attempts.toNat < 1 ∨ maxAttempts < settings.attempts.toNat then
    throw (.attempts settings.attempts)
  if settings.minWaitMs = 0 then throw .zeroWait
  match settings.search with
  | some text => if text = "" ∨ suffixMax < text.utf8ByteSize then throw (.suffix text)
  | none => pure ()
  settings.links.forM LinkSettings.validate

end Settings

inductive ConfigSource
  /-- One server for good, with the default schedule. -/
  | fixed (server : Option Endpoint) (suffix : Option String)
  /-- Settings that can be replaced or withdrawn at any time. -/
  | shared (current : Option Settings)
  deriving DecidableEq

namespace ConfigSource

def unconfigured : ConfigSource := .shared none

/-- What is fixed stays as it is. -/
def replace (source : ConfigSource) (settings : Option Settings) : ConfigSource :=
  match source with
  | .fixed .. => source
  | .shared _ => .shared settings

def nameServer : ConfigSource → Option Endpoint
  | .fixed server _ => server
  | .shared current => current.bind Settings.nameServer

def searchSuffix : ConfigSource → Option String
  | .fixed _ suffix => suffix
  | .shared current => current.bind Settings.searchSuffix

/-- Without settings, the default schedule. -/
def retryPolicy : ConfigSource → RetryPolicy
  | .fixed .. => {}
  | .shared current => (current.map Settings.retryPolicy).getD {}

end ConfigSource
end StubDns
