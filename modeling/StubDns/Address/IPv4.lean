import StubDns.Text

/-! IPv4 addresses and their dotted decimal text; networks, which are addresses of which only the
leading bits count. -/
namespace StubDns

structure IPv4 where
  a : UInt8
  b : UInt8
  c : UInt8
  d : UInt8
  deriving DecidableEq, Repr

namespace IPv4

def octets (address : IPv4) : List UInt8 := [address.a, address.b, address.c, address.d]

/-- The address as a 32-bit number. -/
def toNat (address : IPv4) : Nat :=
  ((address.a.toNat * 256 + address.b.toNat) * 256 + address.c.toNat) * 256 + address.d.toNat

def text (address : IPv4) : String :=
  s!"{address.a.toNat}.{address.b.toNat}.{address.c.toNat}.{address.d.toNat}"

def isLoopback (address : IPv4) : Bool := address.a == 127

def isMulticast (address : IPv4) : Bool := address.a.toNat / 16 == 14

/-- An octet of one to three digits without leading zeros, and the text after its digits. -/
def readOctet (text : List Char) : Option (UInt8 × List Char) :=
  let digits := text.takeWhile (isDigit 10)
  let value := digitsValue 10 digits
  if digits = [] ∨ 3 < digits.length ∨ 255 < value then none
  else if digits.head? = some '0' ∧ digits ≠ ['0'] then none
  else some (UInt8.ofNat value, text.dropWhile (isDigit 10))

/-- An octet after the dot that has to stand before it. -/
def readDotOctet : List Char → Option (UInt8 × List Char)
  | '.' :: rest => readOctet rest
  | _ => none

/-- The address that `text` starts with, and what follows it. -/
def read (text : List Char) : Option (IPv4 × List Char) := do
  let (a, rest) ← readOctet text
  let (b, rest) ← readDotOctet rest
  let (c, rest) ← readDotOctet rest
  let (d, rest) ← readDotOctet rest
  return (⟨a, b, c, d⟩, rest)

/-- The address that is exactly `text`. -/
def parse? (text : List Char) : Option IPv4 :=
  match read text with
  | some (address, []) => some address
  | _ => none

end IPv4

structure Subnet where
  address : IPv4
  prefixLen : Nat
  prefixLen_le : prefixLen ≤ 32 := by decide
  deriving DecidableEq

/-- Why a text names no network. -/
inductive SubnetError
  | secondSlash (text : List Char)
  | address (text : List Char)
  | prefixLen
  deriving DecidableEq, Repr

def SubnetError.message : SubnetError → String
  | .secondSlash text =>
    "invalid cidr format: CIDR must contain a single '/': " ++ String.ofList text
  | .address text => "invalid address: " ++ String.ofList text
  | .prefixLen => "invalid prefix"

namespace Subnet

/-- Both addresses agree in the leading bits. -/
def contains (subnet : Subnet) (address : IPv4) : Bool :=
  address.toNat >>> (32 - subnet.prefixLen) == subnet.address.toNat >>> (32 - subnet.prefixLen)

/-- The mask of so many leading bits, as a number. -/
def mask (prefixLen : Nat) : Nat := (1 <<< 32) - (1 <<< (32 - prefixLen))

/-- The length of a dotted mask, all of whose ones come first. -/
def maskLength? (dotted : IPv4) : Option (Fin 33) :=
  (List.finRange 33).find? fun length => mask length.val == dotted.toNat

/-- A prefix is a dotted mask or a number of bits. -/
def prefixLength? (text : List Char) : Option (Fin 33) :=
  match IPv4.parse? text with
  | some dotted => maskLength? dotted
  | none => do
    let bits ← unsigned? 256 text
    if h : bits < 33 then some ⟨bits, h⟩ else none

/-- Reads an address, alone or with a prefix after a slash. Alone it stands for itself. -/
def parse (text : List Char) : Except SubnetError Subnet := do
  let address := text.takeWhile (· ≠ '/')
  let bits? := match text.dropWhile (· ≠ '/') with
    | [] => none
    | _ :: bits => some bits
  if bits?.any ('/' ∈ ·) then throw (.secondSlash text)
  let some address := IPv4.parse? address | throw (.address address)
  match bits? with
  | none => return { address, prefixLen := 32 }
  | some bits =>
    match prefixLength? bits with
    | some length => return { address, prefixLen := length.val, prefixLen_le := by omega }
    | none => throw .prefixLen

end Subnet
end StubDns
