import StubDns.Toml.Reader
import StubDns.Toml.Scalar

/-! Documents: lines that assign values to keys and headers that choose the table for them. Each
statement may add to what earlier ones made, but redefine none of it. -/
namespace StubDns.Toml

namespace Entries

def find? (entries : Entries) (key : Key) : Option Value := entries.lookup key

/-- Puts `value` in the place of the one that `key` has, or behind all others. -/
def put (key : Key) (value : Value) : Entries → Entries
  | [] => [(key, value)]
  | entry :: rest => if entry.1 = key then (key, value) :: rest else entry :: put key value rest

/-- Changes the table that `path` leads to. Tables on the way that are missing are made, as dotted
ones or as implied ones. Dotted keys lead through no table that has a header, and nothing leads
into a table between braces. -/
def descend (isDotted : Bool) (change : Origin → Entries → Option Entries) :
    (path : List Key) → Origin → Entries → Option Entries
  | [], origin, entries => change origin entries
  | key :: path, _, entries =>
    match find? entries key with
    | none => do
      let origin := if isDotted then Origin.dotted else .implied
      return put key (.table origin (← descend isDotted change path origin [])) entries
    | some (.table origin inner) =>
      if origin = .inline ∨ (isDotted ∧ origin = .header) then none
      else do return put key (.table origin (← descend isDotted change path origin inner)) entries
    | some (.tables earlier last) => do
      return put key (.tables earlier (← descend isDotted change path .header last)) entries
    | some _ => none

/-- Adds a value under a dotted key. The table that takes it is the one at hand, or one that dotted
keys have made. -/
def assign (path : List Key) (key : Key) (value : Value) : Origin → Entries → Option Entries :=
  descend true (fun origin entries =>
    if (path ≠ []) = (origin = .dotted) ∧ (find? entries key).isNone then
      some (put key value entries)
    else none) path

/-- Starts a table by its header. -/
def startTable (key : Key) (entries : Entries) : Option Entries :=
  match find? entries key with
  | none => some (put key (.table .header []) entries)
  | some (.table .implied inner) => some (put key (.table .header inner) entries)
  | some _ => none

/-- Starts one more table of an array of tables. -/
def startElement (key : Key) (entries : Entries) : Option Entries :=
  match find? entries key with
  | none => some (put key (.tables [] []) entries)
  | some (.tables earlier last) =>
    some (put key (.tables (earlier ++ [.table .header last]) []) entries)
  | some _ => none

end Entries

/-- A dotted key: what leads to the table, and the key in it. -/
structure Path where
  way : List Key
  key : Key
  deriving DecidableEq

inductive Statement
  | assign (path : Path) (value : Value)
  | table (path : Path)
  | element (path : Path)

def isBare (c : Char) : Bool := c.isAlphanum || c == '_' || c == '-'

def simpleKey : Reader Key := do
  match (← get).head? with
  | some '"' => basic
  | some '\'' => literal
  | _ =>
    let key ← Reader.takeWhile isBare
    guard (key ≠ [])
    return key

/-- How many keys a path may have, and how many brackets may be around a value. -/
def maxDepth : Nat := 80

def path : Reader Path := do
  let first ← simpleKey
  let more ← Reader.many do
    spaces
    Reader.exactly '.'
    spaces
    simpleKey
  guard (more.length < maxDepth)
  match (first :: more).reverse with
  | key :: way => return ⟨way.reverse, key⟩
  | [] => failure

def comment : Reader Unit := do
  Reader.exactly '#'
  let _ ← Reader.takeWhile isPrintable

/-- Spaces, comments and line breaks, which mean nothing inside brackets. -/
def filler : Reader Unit := do
  let _ ← Reader.many ((Reader.char isSpace *> pure () <|> lineBreak *> pure ()) <|> comment)

/-- Items between brackets, with commas between them and perhaps one more behind the last. -/
def enclosed {α : Type} (first last : Char) (item : Reader α) : Reader (List α) := do
  Reader.exactly first
  filler
  let items ← Reader.optional do
    let head ← item
    filler
    let more ← Reader.many do
      Reader.exactly ','
      filler
      let value ← item
      filler
      return value
    let _ ← Reader.optional (Reader.exactly ',')
    filler
    return head :: more
  Reader.exactly last
  return items.getD []

/-- A key and its value, with what `gap` passes over on both sides of the sign between them. -/
def assignment (gap : Reader Unit) (value : Reader Value) : Reader (Path × Value) := do
  let path ← path
  gap
  Reader.exactly '='
  gap
  return (path, ← value)

/-- A table between braces. Its dotted keys obey the rules of all others. -/
def inlineTable (assignments : List (Path × Value)) : Option Value := do
  let add (entries : Entries) (assignment : Path × Value) : Option Entries :=
    entries.assign assignment.1.way assignment.1.key assignment.2 .inline
  return .table .inline (← assignments.foldlM add [])

/-- A value with at most `depth` brackets around any part of it. -/
def value : (depth : Nat) → Reader Value
  | 0 => do
    match (← get).head? with
    | some '"' | some '\'' => return .string (← quoted)
    | _ => scalar
  | depth + 1 => do
    match (← get).head? with
    | some '"' | some '\'' => return .string (← quoted)
    | some '[' => return .array (← enclosed '[' ']' (value depth))
    | some '\x7b' => inlineTable (← enclosed '\x7b' '\x7d' (assignment filler (value depth)))
    | _ => scalar

/-- A path between single or double brackets. -/
def header (first last : List Char) : Reader Path := do
  Reader.literal first
  spaces
  let path ← path
  spaces
  Reader.literal last
  return path

def statement : Reader Statement := do
  match (← get).take 2 with
  | ['[', '['] => return .element (← header ['[', '['] [']', ']'])
  | '[' :: _ => return .table (← header ['['] [']'])
  | _ =>
    let (path, value) ← assignment spaces (value maxDepth)
    return .assign path value

/-- One line, which may be the last and lack its end. -/
def line : Reader (Option Statement) := do
  guard ((← get) ≠ [])
  spaces
  let statement ← Reader.optional statement
  spaces
  let _ ← Reader.optional comment
  Reader.atEnd <|> lineBreak *> pure ()
  return statement

/-- Why a text is no document. -/
inductive Fault
  /-- The statement that starts on this line cannot be read; lines count from one. -/
  | unreadable (line : Nat)
  /-- A statement that would redefine what these keys lead to. -/
  | conflict (keys : List Key)
  deriving DecidableEq, Repr

def Fault.message : Fault → String
  | .unreadable line => s!"line {line} cannot be read"
  | .conflict keys => "duplicate key " ++ ".".intercalate (keys.map String.ofList)

/-- The lines of a whole text. A byte order mark in front means nothing. Lines are read while they
can be, so what is left starts with the first one that cannot. -/
def statements (text : List Char) : Except Fault (List Statement) :=
  let text := if text.head? = some '\ufeff' then text.tail else text
  -- `many` stops where its item fails, and never fails itself
  let (lines, rest) := ((Reader.many line).run text).getD ([], text)
  if rest = [] then .ok (lines.filterMap id)
  else .error (.unreadable ((text.take (text.length - rest.length)).count '\n' + 1))

/-- The document so far, and the table that assignments go to. -/
structure Draft where
  entries : Entries := []
  here : List Key := []

def Draft.add (draft : Draft) : Statement → Option Draft
  | .assign path value => do
    let entries ← draft.entries.descend false
      (fun origin entries => entries.assign path.way path.key value origin) draft.here .header
    return { draft with entries }
  | .table path => do
    let entries ← draft.entries.descend false (fun _ => Entries.startTable path.key) path.way
      .header
    return ⟨entries, path.way ++ [path.key]⟩
  | .element path => do
    let entries ← draft.entries.descend false (fun _ => Entries.startElement path.key) path.way
      .header
    return ⟨entries, path.way ++ [path.key]⟩

/-- The keys that a statement leads along, from the top of the document. -/
def Draft.target (draft : Draft) : Statement → List Key
  | .assign path _ => draft.here ++ path.way ++ [path.key]
  | .table path | .element path => path.way ++ [path.key]

def Draft.extend (draft : Draft) (statement : Statement) : Except Fault Draft :=
  match draft.add statement with
  | some draft => .ok draft
  | none => .error (.conflict (draft.target statement))

/-- The entries of a whole document. -/
def parse (text : List Char) : Except Fault Entries := do
  let draft ← (← statements text).foldlM Draft.extend {}
  return draft.entries

end StubDns.Toml
