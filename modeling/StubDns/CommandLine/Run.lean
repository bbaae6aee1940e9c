import StubDns.CommandLine.Arguments
import StubDns.Config.Load
import StubDns.Resolver

/-! A whole run: arguments and files in, one lookup, and what is printed about it. -/
namespace StubDns.CommandLine

inductive Conclusion
  | misuse
  | help
  | version
  | notLoaded (error : ConfigError)
  | notValid (error : ConfigError)
  | badLink (error : LinkError)
  | failed (error : ResolveError)
  | notFound (subject : String)
  | found (answer : String)
  deriving DecidableEq

def programName : String := "ferrous-resolv"

def versionText : String := programName ++ " 0.1.0\n"

def usageText : String := "Usage: " ++ programName ++ " [OPTIONS] <COMMAND>\n"

def helpText : String :=
  usageText ++ "\nCommands:\n" ++
    "  lookup HOST   Resolve a host name to its IPv4 address\n" ++
    "  reverse IPV4  Resolve an IPv4 address to its host name\n" ++
    "\nOptions:\n" ++
    "  -c, --config FILE  Configuration file path\n" ++
    "      --server IP    Name server address\n" ++
    "      --port PORT    Name server port\n" ++
    "      --search NAME  Search suffix appended to single-label names\n" ++
    "      --log-level L  Log level\n"

namespace Conclusion

/-- Zero for an answer, one for none, two for whatever kept the lookup from being made. -/
def exitCode : Conclusion → Nat
  | .found _ | .help | .version => 0
  | .notFound _ => 1
  | .misuse | .notLoaded _ | .notValid _ | .badLink _ | .failed _ => 2

def stdout : Conclusion → String
  | .found answer => answer ++ "\n"
  | .help => helpText
  | .version => versionText
  | _ => ""

def complaint (reason : String) : String := programName ++ ": " ++ reason ++ "\n"

def stderr : Conclusion → String
  | .misuse => usageText
  | .notLoaded error => complaint ("Failed to load configuration: " ++ error.message)
  | .notValid error => complaint ("Invalid configuration: " ++ error.message)
  | .badLink error => complaint ("Invalid link configuration: " ++ error.message)
  | .failed error => complaint error.message
  | .notFound subject => subject ++ ": not found\n"
  | .found _ | .help | .version => ""

def ofResult (subject : String) : Except ResolveError (Option String) → Conclusion
  | .ok (some answer) => .found answer
  | .ok none => .notFound subject
  | .error error => .failed error

end Conclusion

/-- Makes the lookup and closes the association that it may have opened. -/
def execute (resolver : Resolver) (command : Command) : Dialogue Conclusion := do
  match command with
  | .lookup host =>
    let (result, resolver) ← resolver.lookupAddress (Utf8.encode host.toList) .inet
    resolver.drop
    return .ofResult host (result.map (·.map (·.host.text)))
  | .reverse address =>
    let (result, resolver) ← resolver.lookupHostname (.v4 address)
    resolver.drop
    return .ofResult address.text result

/-- A resolver with a configuration that has been accepted. -/
def resolver (config : Config) : Except LinkError Resolver := do
  return { source := .shared (some config.resolver)
           registry := ← Registry.ofLinks config.resolver.links }

/-- Loads the configuration, makes the resolver and runs the command. -/
def perform (files : FileSystem) (options : Options) (command : Command) : Dialogue Conclusion :=
  match Config.load files options.config options.overrides with
  | .error error => return .notLoaded error
  | .ok config =>
    match config.validate with
    | .error error => return .notValid error
    | .ok _ =>
      match resolver config with
      | .error error => return .badLink error
      | .ok resolver => execute resolver command

def run (files : FileSystem) (arguments : List String) : Dialogue Conclusion :=
  match Intent.ofArguments arguments with
  | .run options command => perform files options command
  | .help => return .help
  | .version => return .version
  | .misuse => return .misuse

end StubDns.CommandLine
