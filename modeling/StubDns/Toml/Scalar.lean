import StubDns.Toml.Reader
import StubDns.Toml.Value

/-! Values without quotes or brackets: truth values, numbers, dates and times. -/
namespace StubDns.Toml

/-- A number of exactly `width` digits between two bounds. -/
def between (width least greatest : Nat) (digits : List Char) : Bool :=
  digits.length == width && digits.all (isDigit 10) &&
    least ≤ digitsValue 10 digits && digitsValue 10 digits ≤ greatest

def daysIn (year month : Nat) : Nat :=
  if month = 2 then
    if year % 4 = 0 ∧ (year % 100 ≠ 0 ∨ year % 400 = 0) then 29 else 28
  else if [4, 6, 9, 11].contains month then 30
  else 31

/-- Year, month and day of the calendar. -/
def isDate (text : List Char) : Bool :=
  match text.splitOn '-' with
  | [year, month, day] =>
    between 4 0 9999 year && between 2 1 12 month &&
      between 2 1 (daysIn (digitsValue 10 year) (digitsValue 10 month)) day
  | _ => false

/-- Seconds up to a leap second, and digits of a fraction after a point. -/
def isSecond (text : List Char) : Bool :=
  match text.splitOn '.' with
  | [second] => between 2 0 60 second
  | [second, fraction] => between 2 0 60 second && fraction ≠ [] && fraction.all (isDigit 10)
  | _ => false

def isTime (text : List Char) : Bool :=
  match text.splitOn ':' with
  | [hour, minute] => between 2 0 23 hour && between 2 0 59 minute
  | [hour, minute, second] => between 2 0 23 hour && between 2 0 59 minute && isSecond second
  | _ => false

def isOffset (text : List Char) : Bool :=
  match text with
  | [c] => c == 'Z' || c == 'z'
  | sign :: rest =>
    match rest.splitOn ':' with
    | [hour, minute] =>
      (sign == '+' || sign == '-') && between 2 0 23 hour && between 2 0 59 minute
    | _ => false
  | [] => false

def startsOffset (c : Char) : Bool := ['Z', 'z', '+', '-'].contains c

/-- A time of day after a date, with an offset or without. -/
def isTimeWithOffset (text : List Char) : Bool :=
  isTime (text.takeWhile (!startsOffset ·)) &&
    match text.dropWhile (!startsOffset ·) with
    | [] => true
    | offset => isOffset offset

/-- A date, a time, or both with a letter or a space between them. -/
def isMoment (text : List Char) : Bool :=
  isDate text || isTime text ||
    match text.drop 10 with
    | mark :: time =>
      isDate (text.take 10) && ['T', 't', ' '].contains mark && isTimeWithOffset time
    | [] => false

/-- Digits with single underscores between some of them. -/
def groupedDigits? (base : Nat) (text : List Char) : Option (List Char) :=
  let groups := text.splitOn '_'
  if groups.all fun group => group ≠ [] ∧ group.all (isDigit base) then some groups.flatten
  else none

def dropSign : List Char → Sign × List Char
  | '+' :: rest => (.plus, rest)
  | '-' :: rest => (.minus, rest)
  | text => (.absent, text)

/-- Whether the first of two digits or more is a zero. -/
def zeroLeads (digits : List Char) : Bool := digits.head? = some '0' && digits ≠ ['0']

def isExponentMark (c : Char) : Bool := c == 'e' || c == 'E'

/-- The digits of a decimal integer without the underscores. Up to the first underscore they have to
be digits. Behind it there may be anything but a space and the marks of a fraction, as long as both
sides of an underscore are digits of base 16. -/
def decimalDigits? (text : List Char) : Option (List Char) :=
  let groups := text.splitOn '_'
  let digits := groups.flatten
  if (groups.headD []).all (isDigit 10) && !zeroLeads digits &&
      groups.all (fun group => group.head?.any (isDigit 16)) &&
      groups.dropLast.all (fun group => group.getLast?.any (isDigit 16)) &&
      !digits.any (fun c => c == ' ' || c == '.' || isExponentMark c) then
    some digits
  else none

/-- The digits behind the mark of a base. There may be none. -/
def markedDigits? (base : Nat) (text : List Char) : Option (List Char) :=
  if text = [] then some [] else groupedDigits? base text

/-- Numbers in base 16, 8 and 2 have a mark in front and no sign. -/
def integer? (text : List Char) : Option Integer :=
  match text with
  | '0' :: 'x' :: rest => (markedDigits? 16 rest).map fun digits => { base := 16, digits }
  | '0' :: 'o' :: rest => (markedDigits? 8 rest).map fun digits => { base := 8, digits }
  | '0' :: 'b' :: rest => (markedDigits? 2 rest).map fun digits => { base := 2, digits }
  | _ =>
    let (sign, rest) := dropSign text
    (decimalDigits? rest).map fun digits => { sign, digits }

/-- The digits in front of a fraction or an exponent. -/
def wholeDigits? (text : List Char) : Option (List Char) :=
  (groupedDigits? 10 text).filter (!zeroLeads ·)

/-- The part after an `e`, zero if there is none. -/
def exponent? (text : List Char) : Option Int :=
  match text with
  | [] => some 0
  | _ :: exponent =>
    let (sign, rest) := dropSign exponent
    (groupedDigits? 10 rest).map fun digits => sign.apply (digitsValue 10 digits)

/-- A fraction, an exponent or both after some digits; or a name for what is no number. -/
def real? (text : List Char) : Option Real :=
  let (_, text) := dropSign text
  if text = "inf".toList then some .infinite
  else if text = "nan".toList then some .notANumber
  else
    let mantissa := text.takeWhile (!isExponentMark ·)
    let scale := text.dropWhile (!isExponentMark ·)
    let fraction := mantissa.dropWhile (· ≠ '.')
    if fraction = [] ∧ scale = [] then none
    else do
      let whole ← wholeDigits? (mantissa.takeWhile (· ≠ '.'))
      let places ← match fraction with
        | [] => some []
        | _ :: digits => groupedDigits? 10 digits
      let exponent ← exponent? scale
      return .finite (digitsValue 10 (whole ++ places)) (exponent - places.length)

def boolean? (text : List Char) : Option Bool :=
  if text = "true".toList then some true
  else if text = "false".toList then some false
  else none

def scalar? (text : List Char) : Option Value :=
  ((boolean? text).map Value.boolean <|> (integer? text).map .integer) <|>
    ((real? text).map .real <|> if isMoment text then some .moment else none)

/-- What ends a word without quotes. Quotes further on in a word are part of it. -/
def endsWord (c : Char) : Bool :=
  [' ', '\t', '\n', '\r', '#', ',', '=', '[', ']', '\x7b', '\x7d'].contains c

def startsWord (c : Char) : Bool := !endsWord c && c ≠ '"' && c ≠ '\''

/-- A value without quotes: words on one line, with the spaces between them. -/
def scalar : Reader Value := do
  let first ← Reader.takeWhile (!endsWord ·)
  let more ← Reader.many do
    let gap ← Reader.takeWhile isSpace
    let c ← Reader.char startsWord
    return gap ++ c :: (← Reader.takeWhile (!endsWord ·))
  scalar? (first ++ more.flatten)

end StubDns.Toml
