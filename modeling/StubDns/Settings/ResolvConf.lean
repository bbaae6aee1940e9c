import StubDns.Settings
import StubDns.Text

/-! Import of `resolv.conf` text: every line is one directive, and the settings are what the
directives make of the defaults. -/
namespace StubDns
namespace ResolvConf

/-- A number that tunes the retry schedule. -/
inductive Tuning
  | timeout (seconds : Nat)
  | attempts (count : Nat)
  deriving DecidableEq, Repr

inductive Directive
  /-- Absent if no IPv4 address follows. -/
  | nameserver (address : Option IPv4)
  /-- Absent if no name follows. -/
  | suffix (name : Option (List Char))
  | options (tunings : List Tuning)
  | unknown
  deriving DecidableEq, Repr

def isComment (c : Char) : Bool := c == '#' || c == ';'

def dropDots (name : List Char) : List Char := (name.reverse.dropWhile (· = '.')).reverse

/-- A number that does not fit its word is no number. -/
def tuning? (option : List Char) : Option Tuning :=
  match "timeout:".toList.isPrefixOf? option with
  | some seconds => (unsigned? UInt64.size seconds).map .timeout
  | none => do
    let count ← "attempts:".toList.isPrefixOf? option
    return .attempts (← unsigned? UInt32.size count)

/-- What the fields of a line say. Only the first name after the keyword is read. -/
def Directive.ofFields : List (List Char) → Directive
  | [] => .unknown
  | keyword :: values =>
    if keyword = "nameserver".toList then .nameserver (values.head?.bind IPv4.parse?)
    else if keyword = "domain".toList ∨ keyword = "search".toList then
      .suffix ((values.head?.map dropDots).filter (· ≠ []))
    else if keyword = "options".toList then .options (values.filterMap tuning?)
    else .unknown

/-- A comment runs from its sign to the end of the line. -/
def Directive.ofLine (line : List Char) : Directive :=
  .ofFields (fields (line.takeWhile (!isComment ·)))

def directives (text : List Char) : List Directive := (text.splitOn '\n').map Directive.ofLine

/-- Numbers are kept within 1 to 30 seconds and 1 to 5 attempts. -/
def tune (settings : Settings) : Tuning → Settings
  | .timeout seconds =>
    { settings with minWaitMs := UInt64.ofNat (min (max seconds 1) 30 * 1000) }
  | .attempts count => { settings with attempts := UInt32.ofNat (min (max count 1) 5) }

/-- A name server counts only while there is none; a suffix replaces the last one, even by none. -/
def apply (settings : Settings) : Directive → Settings
  | .nameserver address =>
    { settings with nameserver := settings.nameserver <|> address.map .v4 }
  | .suffix name => { settings with search := name.map String.ofList }
  | .options tunings => tunings.foldl tune settings
  | .unknown => settings

end ResolvConf

/-- The settings that a `resolv.conf` text asks for. -/
def Settings.ofResolvConf (text : String) : Settings :=
  (ResolvConf.directives text.toList).foldl ResolvConf.apply {}

end StubDns
