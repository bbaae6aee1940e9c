import StubDns.Address.Endpoint
import StubDns.Toml.Value

/-! What the fields of a structure make of the values of a document. Reading a value that is not what
its field asks for gives the way to it and what was expected there. -/
namespace StubDns.Toml

/-- What a field can ask of its value. -/
inductive Kind
  | text
  | truth
  | address
  /-- A number from zero to below the bound. -/
  | natural (bound : Nat)
  | list
  | record
  /-- Anything whose numbers fit the widest types there are. -/
  | sized
  deriving DecidableEq, Repr

def Kind.name : Kind → String
  | .text => "a string"
  | .truth => "a boolean"
  | .address => "an IP address"
  | .natural bound => s!"a number below {bound}"
  | .list => "a sequence"
  | .record => "a structure"
  | .sized => "a number in range"

/-- A step from a value to one inside it. -/
inductive Place
  | field (key : Key)
  | item (index : Nat)
  deriving DecidableEq, Repr

def Place.text : Place → String
  | .field key => String.ofList key
  | .item index => toString index

/-- A value that is not what its field asks for, or is missing, and the way to it. -/
structure Misfit where
  way : List Place := []
  wanted : Kind
  deriving DecidableEq, Repr

def Misfit.message (misfit : Misfit) : String :=
  s!"expected {misfit.wanted.name} at " ++ ".".intercalate (misfit.way.map Place.text)

def Value.items? : Value → Option (List Value)
  | .array items => some items
  | .tables earlier last => some (earlier ++ [.table .header last])
  | _ => none

/-- What `read` makes of a value. If that is nothing, the value is not what is wanted. -/
def Kind.take {α : Type} (wanted : Kind) (read : Value → Option α) (value : Value) :
    Except Misfit α :=
  match read value with
  | some result => .ok result
  | none => .error { wanted }

/-- What `read` makes of the value at a place, which leads to all that is wrong in it. -/
def Place.take {α : Type} (place : Place) (read : Value → Except Misfit α) (value : Value) :
    Except Misfit α :=
  (read value).mapError fun misfit => { misfit with way := place :: misfit.way }

namespace Value

def text : Value → Except Misfit String :=
  Kind.text.take fun
    | .string text => some (String.ofList text)
    | _ => none

def truth : Value → Except Misfit Bool :=
  Kind.truth.take fun
    | .boolean value => some value
    | _ => none

def address : Value → Except Misfit IPAddress :=
  Kind.address.take fun
    | .string text => IPAddress.parse? text
    | _ => none

def natural (bound : Nat) : Value → Except Misfit Nat :=
  (Kind.natural bound).take fun
    | .integer number => do
      let value ← number.value?
      if 0 ≤ value ∧ value < bound then some value.toNat else none
    | _ => none

def items : Value → Except Misfit (List Value) := Kind.list.take items?

/-- All items of a list, each read by `read`. -/
def list {α : Type} (read : Value → Except Misfit α) (value : Value) : Except Misfit (List α) := do
  (← value.items).mapIdxM fun index => (Place.item index).take read

end Value

/-- The values of the fields of a structure, by their names. -/
abbrev Fields := String → Option Value

/-- The named fields of a table. Other values count only as far as they have to fit some type. -/
def Entries.fields (entries : Entries) (names : List String) : Except Misfit Fields :=
  let counts (entry : Key × Value) : Bool :=
    (names.any fun name => name.toList == entry.1) || entry.2.fits
  match List.find? (!counts ·) entries with
  | some (key, _) => .error ⟨[.field key], .sized⟩
  | none => .ok fun name => entries.lookup name.toList

/-- The fields by name or by place. A date or time has none of them. -/
def Value.fields (value : Value) (names : List String) : Except Misfit Fields :=
  match value with
  | .table _ entries => Entries.fields entries names
  | .moment => .ok fun _ => none
  | _ => (Kind.record.take Value.items? value).map fun items name => items[names.idxOf name]?

/-- What `read` makes of a field, if it is there. -/
def Fields.get? {α : Type} (fields : Fields) (name : String) (read : Value → Except Misfit α) :
    Except Misfit (Option α) :=
  (fields name).mapM ((Place.field name.toList).take read)

end StubDns.Toml
