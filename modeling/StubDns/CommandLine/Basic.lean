import StubDns.Config.Document

/-! What a user can ask for on the command line. -/
namespace StubDns

namespace CommandLine

inductive Command
  | lookup (host : String)
  | reverse (address : IPv4)
  deriving DecidableEq

/-- The options, each of which may stand before or behind the command. -/
inductive OptionName
  | config
  | server
  | port
  | search
  | logLevel
  deriving DecidableEq, Repr

structure Options where
  config : Option String := none
  server : Option IPAddress := none
  port : Option UInt16 := none
  search : Option String := none
  logLevel : Option String := none
  deriving DecidableEq

/-- A port is read as a signed number, so there is a negative zero. -/
def port? (text : List Char) : Option UInt16 :=
  match text with
  | '-' :: digits => if digits ≠ [] ∧ digits.all (· = '0') then some 0 else none
  | _ => (unsigned? UInt16.size text).map UInt16.ofNat

namespace Options

/-- Gives an option its value, once. -/
def set (options : Options) (name : OptionName) (value : String) : Option Options :=
  match name with
  | .config => if options.config.isSome then none else some { options with config := some value }
  | .server =>
    if options.server.isSome then none
    else (IPAddress.parse? value.toList).map fun server => { options with server := some server }
  | .port =>
    if options.port.isSome then none
    else (port? value.toList).map fun port => { options with port := some port }
  | .search => if options.search.isSome then none else some { options with search := some value }
  | .logLevel =>
    if options.logLevel.isSome then none else some { options with logLevel := some value }

/-- What stands behind the command wins over what stands before it. -/
def orElse (options others : Options) : Options where
  config := options.config <|> others.config
  server := options.server <|> others.server
  port := options.port <|> others.port
  search := options.search <|> others.search
  logLevel := options.logLevel <|> others.logLevel

def overrides (options : Options) : Overrides where
  nameserver := options.server
  port := options.port
  search := options.search
  logLevel := options.logLevel

end Options

/-- What a whole command line asks for. -/
inductive Intent
  | run (options : Options) (command : Command)
  | help
  | version
  | misuse
  deriving DecidableEq

end CommandLine
end StubDns
