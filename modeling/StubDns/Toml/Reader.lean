import StubDns.Text

/-! Readers take something off the front of a text, or fail and take nothing. Quoted text is read on
one line or on several, with escapes or without. -/
namespace StubDns.Toml

abbrev Reader := StateT (List Char) Option

namespace Reader
variable {α : Type}

/-- The next character if it is one of those wanted. -/
def char (wanted : Char → Bool) : Reader Char := fun text =>
  match text with
  | c :: rest => if wanted c then some (c, rest) else none
  | [] => none

def exactly (c : Char) : Reader Unit := do let _ ← char (· == c)

/-- The front of the text, if it is these characters. -/
def literal (front : List Char) : Reader Unit := fun text =>
  (front.isPrefixOf? text).map fun rest => ((), rest)

/-- The longest run of wanted characters, which may be empty. -/
def takeWhile (wanted : Char → Bool) : Reader (List Char) := fun text =>
  some (text.takeWhile wanted, text.dropWhile wanted)

def atEnd : Reader Unit := do guard ((← get) = [])

/-- Nothing is taken if the reader fails. -/
def optional (item : Reader α) : Reader (Option α) := some <$> item <|> pure none

/-- Items until one fails, at most `limit`. -/
def upTo (item : Reader α) : (limit : Nat) → Reader (List α)
  | 0 => return []
  | limit + 1 => do
    match ← optional item with
    | some value => return value :: (← upTo item limit)
    | none => return []

/-- Items until one fails. Each takes a character at least, so there are no more than characters. -/
def many (item : Reader α) : Reader (List α) := do upTo item (← get).length

end Reader

def isSpace (c : Char) : Bool := c == ' ' || c == '\t'

def spaces : Reader Unit := do let _ ← Reader.takeWhile isSpace

/-- What a line of text may hold: no control character but the tab. -/
def isPrintable (c : Char) : Bool := c == '\t' || (0x20 ≤ c.toNat && c.toNat ≠ 0x7f)

/-- The end of a line, with a carriage return or without; kept as it is written. -/
def lineBreak : Reader (List Char) :=
  (do Reader.exactly '\n'; return ['\n']) <|>
    (do Reader.literal ['\r', '\n']; return ['\r', '\n'])

/-- The character with this code of exactly `width` digits. -/
def coded (width : Nat) : Reader Char := do
  let digits := (← get).take width
  let code := digitsValue 16 digits
  guard (digits.length = width ∧ digits.all (isDigit 16) ∧ code.isValidChar)
  set ((← get).drop width)
  return Char.ofNat code

/-- The character that an escape stands for, after its backslash. -/
def escaped : Reader Char := do
  match ← Reader.char fun _ => true with
  | 'b' => return '\x08'
  | 't' => return '\t'
  | 'n' => return '\n'
  | 'f' => return '\x0c'
  | 'r' => return '\r'
  | 'e' => return '\x1b'
  | '"' => return '"'
  | '\\' => return '\\'
  | 'x' => coded 2
  | 'u' => coded 4
  | 'U' => coded 8
  | _ => failure

def escape : Reader Char := do
  Reader.exactly '\\'
  escaped

/-- A backslash at the end of a line takes away all space up to the next text. -/
def fold : Reader (List Char) := do
  Reader.exactly '\\'
  spaces
  let _ ← lineBreak
  let _ ← Reader.many (Reader.char isSpace *> pure () <|> lineBreak *> pure ())
  return []

/-- One quote that is not the first of three. -/
def loneQuote (quote : Char) : Reader (List Char) := do
  guard ((← get).take 3 ≠ [quote, quote, quote])
  Reader.exactly quote
  return [quote]

/-- The three quotes that end a text of several lines. Up to two more before them belong to it. -/
def closing (quote : Char) : Reader (List Char) := do
  let quotes ← Reader.takeWhile (· == quote)
  guard (3 ≤ quotes.length ∧ quotes.length ≤ 5)
  return quotes.drop 3

/-- A text of several lines, made of `pieces`; a line break right after the opening is dropped. -/
def lines (quote : Char) (piece : Reader (List Char)) : Reader (List Char) := do
  Reader.literal [quote, quote, quote]
  let _ ← Reader.optional lineBreak
  let pieces ← Reader.many (piece <|> (loneQuote quote <|> lineBreak))
  return pieces.flatten ++ (← closing quote)

def basicLines : Reader (List Char) :=
  lines '"' ((List.singleton <$> escape <|> fold) <|>
    List.singleton <$> Reader.char fun c => isPrintable c && c ≠ '"' && c ≠ '\\')

def literalLines : Reader (List Char) :=
  lines '\'' (List.singleton <$> Reader.char fun c => isPrintable c && c ≠ '\'')

def basic : Reader (List Char) := do
  Reader.exactly '"'
  let text ← Reader.many
    (escape <|> Reader.char fun c => isPrintable c && c ≠ '"' && c ≠ '\\')
  Reader.exactly '"'
  return text

/-- Without escapes: what stands between the quotes. -/
def literal : Reader (List Char) := do
  Reader.exactly '\''
  let text ← Reader.takeWhile fun c => isPrintable c && c ≠ '\''
  Reader.exactly '\''
  return text

def quoted : Reader (List Char) := do
  match (← get).take 3 with
  | ['"', '"', '"'] => basicLines
  | ['\'', '\'', '\''] => literalLines
  | '"' :: _ => basic
  | _ => literal

end StubDns.Toml
