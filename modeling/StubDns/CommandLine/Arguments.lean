import StubDns.CommandLine.Basic

/-! Reading the arguments from left to right: options, a command, then options and its operand. -/
namespace StubDns.CommandLine

inductive Argument
  /-- Two dashes: only operands follow. -/
  | escape
  | long (name : List Char) (value : Option (List Char))
  | short (letter : Char) (rest : List Char)
  /-- A value, a command or an operand; a lone dash is one too. -/
  | plain (text : String)
  deriving DecidableEq

def Argument.ofString (text : String) : Argument :=
  match text.toList with
  | ['-', '-'] => .escape
  | '-' :: '-' :: name =>
    match name.dropWhile (· ≠ '=') with
    | [] => .long name none
    | _ :: value => .long (name.takeWhile (· ≠ '=')) (some value)
  | '-' :: letter :: rest => .short letter rest
  | _ => .plain text

inductive Flag
  | help
  | version
  deriving DecidableEq, Repr

/-- An option with the value that is joined to it, or a flag. -/
inductive Item
  | option (name : OptionName) (value : Option String)
  | flag (flag : Flag)
  deriving DecidableEq

def longOption? (name : List Char) : Option OptionName :=
  [("config", OptionName.config), ("server", .server), ("port", .port), ("search", .search),
    ("log-level", .logLevel)].findSome? fun (long, option) =>
      if long.toList = name then some option else none

/-- Flags take no value. A letter's value follows at once, with an equals sign or without. -/
def Argument.item? : Argument → Option Item
  | .long name value =>
    if name = "help".toList ∧ value = none then some (.flag .help)
    else if name = "version".toList ∧ value = none then some (.flag .version)
    else (longOption? name).map fun option => .option option (value.map String.ofList)
  | .short letter rest =>
    if letter = 'h' then some (.flag .help)
    else if letter = 'V' then some (.flag .version)
    else if letter = 'c' then
      some (.option .config (match rest with
        | [] => none
        | '=' :: value => some (String.ofList value)
        | _ => some (String.ofList rest)))
    else none
  | .escape | .plain _ => none

/-- What has been read and is checked when the next argument is no value of it. -/
inductive Pending
  | nothing
  /-- An option without its value. -/
  | option (name : OptionName)
  | value (name : OptionName) (value : String)
  | operand (text : String)
  deriving DecidableEq

inductive Verb
  | lookup
  | reverse
  deriving DecidableEq, Repr

def Verb.ofString? (text : String) : Option Verb :=
  if text = "lookup" then some .lookup else if text = "reverse" then some .reverse else none

def Verb.command? (verb : Verb) (operand : String) : Option Command :=
  match verb with
  | .lookup => some (.lookup operand)
  | .reverse => (IPv4.parse? operand.toList).map .reverse

/-- How far one side of the command has been read. -/
structure Progress where
  options : Options := {}
  command : Option Command := none
  pending : Pending := .nothing
  deriving DecidableEq

namespace Progress

/-- Checks what is pending. `verb` reads the operand; before the command there is none. -/
def settle (progress : Progress) (verb : Option Verb) : Option Progress :=
  match progress.pending with
  | .nothing => some progress
  | .option _ => none
  | .value name value => do
    return { progress with options := ← progress.options.set name value, pending := .nothing }
  | .operand text => do
    return { progress with command := some (← (← verb).command? text), pending := .nothing }

/-- Takes up an option; its joined value is checked at once. -/
def take (progress : Progress) (verb : Option Verb) (name : OptionName) (value : Option String) :
    Option Progress := do
  let progress ← progress.settle verb
  match value with
  | none => return { progress with pending := .option name }
  | some value => return { progress with options := ← progress.options.set name value }

/-- One operand, and no more than one. -/
def operand (progress : Progress) (verb : Option Verb) (text : String) : Option Progress := do
  match progress.pending with
  | .operand _ => none
  | _ =>
    let progress ← progress.settle verb
    guard progress.command.isNone
    return { progress with pending := .operand text }

end Progress

def Flag.intent : Flag → Intent
  | .help => .help
  | .version => .version

/-- At the end of the arguments nothing may wait for a value. -/
def finish (verb : Verb) (progress : Progress) : Except Intent Progress :=
  match progress.settle (some verb) with
  | some progress => .ok progress
  | none => .error .misuse

/-- Reads arguments that can only be operands. -/
def readOperands (verb : Verb) (progress : Progress) : List String → Except Intent Progress
  | [] => finish verb progress
  | text :: rest =>
    match progress.operand (some verb) text with
    | some progress => readOperands verb progress rest
    | none => .error .misuse

/-- Reads what follows the command. There the only flag is the one for help. -/
def readBehind (verb : Verb) (progress : Progress) : List String → Except Intent Progress
  | [] => finish verb progress
  | text :: rest =>
    match Argument.ofString text with
    | .escape =>
      match progress.pending with
      | .option _ => .error .misuse
      | _ => readOperands verb progress rest
    | .plain text =>
      match progress.pending with
      | .option name => readBehind verb { progress with pending := .value name text } rest
      | _ =>
        match progress.operand (some verb) text with
        | some progress => readBehind verb progress rest
        | none => .error .misuse
    | argument =>
      match argument.item? with
      | some (.flag .help) =>
        .error (if (progress.settle (some verb)).isSome then .help else .misuse)
      | some (.option name value) =>
        match progress.take (some verb) name value with
        | some progress => readBehind verb progress rest
        | none => .error .misuse
      | _ => .error .misuse

/-- Joins both sides of the command. What was pending before it is checked last. -/
def join (before : Progress) : Except Intent Progress → Intent
  | .error intent => intent
  | .ok behind =>
    match before.settle none, behind.command with
    | some before, some command => .run (behind.options.orElse before.options) command
    | _, _ => .misuse

/-- Help is there for each command and for the help itself. -/
def helpOn : List String → Intent
  | [] => .help
  | [name] => if (Verb.ofString? name).isSome ∨ name = "help" then .help else .misuse
  | _ => .misuse

/-- Reads the arguments up to the command. Without one nothing can be done. -/
def read (progress : Progress) : List String → Intent
  | [] => .misuse
  | text :: rest =>
    match Argument.ofString text with
    | .escape => .misuse
    | .plain text =>
      match progress.pending with
      | .option name => read { progress with pending := .value name text } rest
      | _ =>
        match Verb.ofString? text with
        | some verb => join progress (readBehind verb {} rest)
        | none => if text = "help" then helpOn rest else .misuse
    | argument =>
      match argument.item? with
      | some (.flag flag) =>
        if (progress.settle none).isSome then flag.intent else .misuse
      | some (.option name value) =>
        match progress.take none name value with
        | some progress => read progress rest
        | none => .misuse
      | none => .misuse

/-- What a command line asks for. -/
def Intent.ofArguments (arguments : List String) : Intent := read {} arguments

end StubDns.CommandLine
