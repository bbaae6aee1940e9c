import StubDns.Settings
import StubDns.Toml.Document
import StubDns.Toml.Field

/-! The whole configuration, settings of the resolver and of the log, and the document that holds
it. Every field may be left out, names that mean nothing are passed over, and a structure may be
written as a table or as the array of its fields. -/
namespace StubDns

structure Logging where
  level : String := "warn"
  /-- One JSON object a line in place of text. -/
  json : Bool := false
  deriving DecidableEq

structure Config where
  resolver : Settings := {}
  logging : Logging := {}
  deriving DecidableEq

/-- Values that stand above those of every file. -/
structure Overrides where
  nameserver : Option IPAddress := none
  port : Option UInt16 := none
  search : Option String := none
  logLevel : Option String := none
  deriving DecidableEq

/-- Why a text gives no configuration. -/
inductive ParseError
  | document (fault : Toml.Fault)
  | value (misfit : Toml.Misfit)
  deriving DecidableEq

def ParseError.message : ParseError → String
  | .document fault => fault.message
  | .value misfit => misfit.message

inductive ConfigError
  | fileRead (path reason : String)
  | parse (reason : ParseError)
  | validation (error : SettingsError)
  deriving DecidableEq

def ConfigError.message : ConfigError → String
  | .fileRead path reason => s!"Failed to read config file {path}: {reason}"
  | .parse reason => "Failed to parse config: " ++ reason.message
  | .validation error => "Configuration validation error: " ++ error.message

namespace Config

def apply (config : Config) (overrides : Overrides) : Config where
  resolver :=
    { config.resolver with
      nameserver := overrides.nameserver <|> config.resolver.nameserver
      port := overrides.port.getD config.resolver.port
      search := overrides.search <|> config.resolver.search }
  logging := { config.logging with level := overrides.logLevel.getD config.logging.level }

def validate (config : Config) : Except ConfigError Unit :=
  config.resolver.validate.mapError .validation

end Config

open Toml (Value Entries Misfit)

def LinkSettings.ofValue (value : Value) : Except Misfit LinkSettings := do
  let fields ← value.fields ["network", "scope_id"]
  let some network ← fields.get? "network" Value.text
    | throw ⟨[.field "network".toList], .text⟩
  let scopeId? ← fields.get? "scope_id" (Value.natural UInt32.size)
  let defaults : LinkSettings := { network }
  return { defaults with scopeId := (scopeId?.map UInt32.ofNat).getD defaults.scopeId }

def Settings.ofValue (value : Value) : Except Misfit Settings := do
  let defaults : Settings := {}
  let fields ← value.fields ["nameserver", "port", "search", "attempts", "min_wait_ms", "links"]
  let nameserver ← fields.get? "nameserver" Value.address
  let port? ← fields.get? "port" (Value.natural UInt16.size)
  let search ← fields.get? "search" Value.text
  let attempts? ← fields.get? "attempts" (Value.natural UInt32.size)
  let wait? ← fields.get? "min_wait_ms" (Value.natural UInt64.size)
  let links? ← fields.get? "links" (Value.list LinkSettings.ofValue)
  return {
    nameserver, search
    port := (port?.map UInt16.ofNat).getD defaults.port
    attempts := (attempts?.map UInt32.ofNat).getD defaults.attempts
    minWaitMs := (wait?.map UInt64.ofNat).getD defaults.minWaitMs
    links := links?.getD defaults.links }

def Logging.ofValue (value : Value) : Except Misfit Logging := do
  let defaults : Logging := {}
  let fields ← value.fields ["level", "json"]
  let level? ← fields.get? "level" Value.text
  let json? ← fields.get? "json" Value.truth
  return { level := level?.getD defaults.level, json := json?.getD defaults.json }

def Config.ofEntries (entries : Entries) : Except Misfit Config := do
  let fields ← Entries.fields entries ["resolver", "logging"]
  let resolver? ← fields.get? "resolver" Settings.ofValue
  let logging? ← fields.get? "logging" Logging.ofValue
  return { resolver := resolver?.getD {}, logging := logging?.getD {} }

/-- Reads a TOML text. -/
def Config.parse (text : List Char) : Except ConfigError Config := do
  let entries ← (Toml.parse text).mapError fun fault => .parse (.document fault)
  (Config.ofEntries entries).mapError fun misfit => .parse (.value misfit)

end StubDns
