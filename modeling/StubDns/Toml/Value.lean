import StubDns.Text

/-! Numbers as they are written, the values of a document, and which of them a reader of any type
can take in. A text shows at once where it has an integer; whether the digits mean anything counts
only when the number is wanted. -/
namespace StubDns.Toml

inductive Sign
  | absent
  | plus
  | minus
  deriving DecidableEq, Repr

/-- The number of this size and sign. -/
def Sign.apply (sign : Sign) (size : Nat) : Int := if sign = .minus then -(size : Int) else size

structure Integer where
  sign : Sign := .absent
  base : Nat := 10
  digits : List Char
  deriving DecidableEq, Repr

namespace Integer

/-- Nothing unless there are digits and all of them belong to the base. -/
def value? (integer : Integer) : Option Int :=
  if integer.digits ≠ [] ∧ integer.digits.all (isDigit integer.base) then
    some (integer.sign.apply (digitsValue integer.base integer.digits))
  else none

/-- The least number of 128 bits with a sign. -/
def least : Int := -((1 <<< 127 : Nat) : Int)

/-- The greatest number of 128 bits without a sign. -/
def greatest : Int := ((1 <<< 128) - 1 : Nat)

/-- Whether there is a number, and the widest types there are can hold it. -/
def fits (integer : Integer) : Bool :=
  integer.value?.any fun value => least ≤ value && value ≤ greatest

end Integer

inductive Real
  | finite (mantissa : Nat) (exponent : Int)
  | infinite
  | notANumber
  deriving DecidableEq, Repr

/-- The least number that rounds to infinity in binary64, half a unit above the greatest. -/
def Real.limit : Nat := (1 <<< 1024) - (1 <<< 970)

/-- A written number that binary64 cannot hold. Where the decimal point is decides it, except near
the limit. -/
def Real.overflows : Real → Bool
  | .finite 0 _ => false
  | .finite mantissa exponent =>
    let magnitude := ((Nat.toDigits 10 mantissa).length : Int) + exponent
    if magnitude < 309 then false
    else if 309 < magnitude then true
    else if exponent < 0 then limit * Nat.pow 10 exponent.natAbs ≤ mantissa
    else limit ≤ mantissa * Nat.pow 10 exponent.toNat
  | .infinite | .notANumber => false

abbrev Key := List Char

/-- How a table came to be, which decides who may add to it. -/
inductive Origin
  /-- By its own header, or as the document itself. -/
  | header
  /-- By the header of a table inside it; its own header may still follow. -/
  | implied
  /-- By a dotted key; more dotted keys may follow. -/
  | dotted
  /-- Between braces, which close it for good. -/
  | inline
  deriving DecidableEq, Repr

inductive Value
  | string (text : List Char)
  | integer (value : Integer)
  | real (value : Real)
  | boolean (value : Bool)
  /-- A date, a time or both. Its parts are checked and not kept. -/
  | moment
  | array (items : List Value)
  /-- Tables with one header each, in double brackets; headers add to the last one. -/
  | tables (earlier : List Value) (last : List (Key × Value))
  | table (origin : Origin) (entries : List (Key × Value))

abbrev Entries := List (Key × Value)

mutual

/-- Numbers have to mean something and fit the widest types there are, everywhere inside. -/
def Value.fits : Value → Bool
  | .integer value => value.fits
  | .real value => !value.overflows
  | .array items => itemsFit items
  | .tables earlier last => itemsFit earlier && entriesFit last
  | .table _ entries => entriesFit entries
  | .string _ | .boolean _ | .moment => true

def itemsFit : List Value → Bool
  | [] => true
  | value :: rest => value.fits && itemsFit rest

def entriesFit : List (Key × Value) → Bool
  | [] => true
  | (_, value) :: rest => value.fits && entriesFit rest

end

end StubDns.Toml
