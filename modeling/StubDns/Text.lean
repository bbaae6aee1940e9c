import StubDns.Wire.Bytes

/-! White space and numbers in text, and text in UTF-8, ill-formed input included. -/
namespace StubDns

/-- The characters with the property White_Space. -/
def isBlank (c : Char) : Bool :=
  let code := c.toNat
  (9 ≤ code && code ≤ 13) || code == 0x20 || code == 0x85 || code == 0xa0 || code == 0x1680 ||
    (0x2000 ≤ code && code ≤ 0x200a) || code == 0x2028 || code == 0x2029 || code == 0x202f ||
    code == 0x205f || code == 0x3000

/-- The longest runs without white space. -/
def fields (text : List Char) : List (List Char) :=
  (text.splitOnP isBlank).filter (· ≠ [])

/-- The value of a digit in a base of at most 16; letters count in either case. -/
def digit? (base : Nat) (c : Char) : Option Nat :=
  let value? :=
    if '0' ≤ c ∧ c ≤ '9' then some (c.toNat - '0'.toNat)
    else if 'a' ≤ c ∧ c ≤ 'f' then some (c.toNat - 'a'.toNat + 10)
    else if 'A' ≤ c ∧ c ≤ 'F' then some (c.toNat - 'A'.toNat + 10)
    else none
  value?.filter (· < base)

def isDigit (base : Nat) (c : Char) : Bool := (digit? base c).isSome

/-- The number that a run of digits stands for. -/
def digitsValue (base : Nat) (digits : List Char) : Nat :=
  digits.foldl (fun value c => value * base + (digit? base c).getD 0) 0

/-- A number below `bound` in decimal digits, leading zeros allowed. -/
def decimal? (bound : Nat) (digits : List Char) : Option Nat :=
  if digits ≠ [] ∧ digits.all (isDigit 10) then
    some (digitsValue 10 digits) |>.filter (· < bound)
  else none

/-- A number below `bound` that may have a plus sign in front. -/
def unsigned? (bound : Nat) (text : List Char) : Option Nat :=
  match text with
  | '+' :: digits => decimal? bound digits
  | _ => decimal? bound text

namespace Utf8

def encode (text : List Char) : Bytes := text.flatMap String.utf8EncodeChar

/-- What a lead byte asks for: the bounds of the second byte, the number of bytes after that one,
and the high bits of the character. -/
structure Form where
  low : Nat
  high : Nat
  more : Nat
  bits : Nat

/-- The lead bytes of two, three and four byte sequences. Tighter bounds on the second byte keep
out overlong forms, surrogates and what lies beyond the last character. -/
def form? (lead : Nat) : Option Form :=
  if 0xc2 ≤ lead ∧ lead ≤ 0xdf then some ⟨0x80, 0xbf, 0, lead - 0xc0⟩
  else if lead = 0xe0 then some ⟨0xa0, 0xbf, 1, 0⟩
  else if lead = 0xed then some ⟨0x80, 0x9f, 1, 13⟩
  else if 0xe1 ≤ lead ∧ lead ≤ 0xef then some ⟨0x80, 0xbf, 1, lead - 0xe0⟩
  else if lead = 0xf0 then some ⟨0x90, 0xbf, 2, 0⟩
  else if 0xf1 ≤ lead ∧ lead ≤ 0xf3 then some ⟨0x80, 0xbf, 2, lead - 0xf0⟩
  else if lead = 0xf4 then some ⟨0x80, 0x8f, 2, 4⟩
  else none

def isContinuation (byte : UInt8) : Bool := 0x80 ≤ byte.toNat && byte.toNat ≤ 0xbf

/-- The character after a lead byte of this form, or none, and how many bytes belong to it. -/
def tail (form : Form) : Bytes → Option Char × Nat
  | [] => (none, 0)
  | second :: rest =>
    if second.toNat < form.low ∨ form.high < second.toNat then (none, 0)
    else
      let more := (rest.take form.more).takeWhile isContinuation
      let code := (second :: more).foldl (fun code byte => code * 64 + byte.toNat % 64) form.bits
      (if more.length = form.more then some (Char.ofNat code) else none, 1 + more.length)

/-- The characters of `bytes`; `none` stands for a longest part that begins no character. -/
def units : Bytes → List (Option Char)
  | [] => []
  | lead :: rest =>
    if lead.toNat < 0x80 then some (Char.ofNat lead.toNat) :: units rest
    else match form? lead.toNat with
      | none => none :: units rest
      | some form =>
        let (unit, size) := tail form rest
        unit :: units (rest.drop size)
termination_by bytes => bytes.length
decreasing_by all_goals simp only [List.length_drop, List.length_cons]; omega

/-- The text, if all of `bytes` is well formed. -/
def decode? (bytes : Bytes) : Option (List Char) := (units bytes).mapM id

/-- The text with a replacement character for each ill-formed part. -/
def decodeLossy (bytes : Bytes) : List Char := (units bytes).map (·.getD '\ufffd')

end Utf8
end StubDns
