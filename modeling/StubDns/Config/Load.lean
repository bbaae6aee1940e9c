import StubDns.Config.Document
import StubDns.Settings.ResolvConf
import StubDns.Text

/-! Files that can be read, why one cannot, and which of them the configuration comes from. -/
namespace StubDns

inductive FileFailure
  | missing
  | isDirectory
  | notDirectory
  | notText
  | nameTooLong
  /-- Anything else that the system says. -/
  | refused (reason : String)
  deriving DecidableEq, Repr

def FileFailure.message : FileFailure → String
  | .missing => "No such file or directory (os error 2)"
  | .isDirectory => "Is a directory (os error 21)"
  | .notDirectory => "Not a directory (os error 20)"
  | .notText => "stream did not contain valid UTF-8"
  | .nameTooLong => "File name too long (os error 36)"
  | .refused reason => reason

inductive FileEntry
  | file (content : Bytes)
  | directory
  deriving DecidableEq

/-- The text of a file. -/
def FileEntry.readText : FileEntry → Except FileFailure (List Char)
  | .directory => .error .isDirectory
  | .file content =>
    match Utf8.decode? content with
    | some text => .ok text
    | none => .error .notText

/-- What each path leads to. -/
abbrev FileSystem := String → Except FileFailure FileEntry

/-- Whether a path leads anywhere, to a file or to a directory. -/
def FileSystem.contains (files : FileSystem) (path : String) : Bool :=
  (files path).toOption.isSome

namespace Config

def localPath : String := "ferrous-resolv.toml"

def systemPath : String := "/etc/ferrous-resolv/config.toml"

def resolvConfPath : String := "/etc/resolv.conf"

def readText (files : FileSystem) (path : String) : Except ConfigError (List Char) :=
  (files path >>= FileEntry.readText).mapError fun failure => .fileRead path failure.message

def ofFile (files : FileSystem) (path : String) : Except ConfigError Config := do
  Config.parse (← readText files path)

def ofResolvConfFile (files : FileSystem) (path : String) : Except ConfigError Config := do
  return { resolver := Settings.ofResolvConf (String.ofList (← readText files path)) }

/-- The file that is asked for, or else the first of the usual ones that exists, or else the
defaults. -/
def ofFiles (files : FileSystem) (path : Option String) : Except ConfigError Config :=
  match path with
  | some path => ofFile files path
  | none =>
    if files.contains localPath then ofFile files localPath
    else if files.contains systemPath then ofFile files systemPath
    else if files.contains resolvConfPath then ofResolvConfFile files resolvConfPath
    else .ok {}

def load (files : FileSystem) (path : Option String) (overrides : Overrides) :
    Except ConfigError Config := do
  return (← ofFiles files path).apply overrides

end Config
end StubDns
