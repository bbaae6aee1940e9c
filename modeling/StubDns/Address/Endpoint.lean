import StubDns.Address.IPv4

/-! IPv6 addresses: eight groups, written with the longest run of zero groups left out. Addresses of
either family, and with a port the place where a server listens. -/
namespace StubDns

structure IPv6 where
  groups : List UInt16
  length_groups : groups.length = 8
  deriving DecidableEq

namespace IPv6

/-- A group of one to four hexadecimal digits, and the text after its digits. -/
def readGroup (text : List Char) : Option (UInt16 × List Char) :=
  let digits := text.takeWhile (isDigit 16)
  if digits = [] ∨ 4 < digits.length then none
  else some (UInt16.ofNat (digitsValue 16 digits), text.dropWhile (isDigit 16))

/-- The two groups that a dotted address in last place stands for. -/
def groupsOfIPv4 (address : IPv4) : List UInt16 :=
  [UInt16.ofNat (address.a.toNat * 256 + address.b.toNat),
    UInt16.ofNat (address.c.toNat * 256 + address.d.toNat)]

/-- What a run of groups was read as. -/
structure Run where
  groups : List UInt16
  /-- The last two groups were written as a dotted address, which ends the run. -/
  dotted : Bool
  rest : List Char

/-- At most `limit` groups with colons between them; `first` when none has been read yet. A dotted
address takes the place of two. -/
def readGroups : (limit : Nat) → (first : Bool) → List Char → Run
  | 0, _, text => ⟨[], false, text⟩
  | limit + 1, first, text =>
    let item? := match first, text with
      | true, text => some text
      | false, ':' :: rest => some rest
      | false, _ => none
    match item?, item?.bind IPv4.read, item?.bind readGroup with
    | some _, some (address, rest), group? =>
      if 1 ≤ limit then ⟨groupsOfIPv4 address, true, rest⟩
      else match group? with
        | some (group, rest) => ⟨[group], false, rest⟩
        | none => ⟨[], false, text⟩
    | some _, none, some (group, rest) =>
      let run := readGroups limit false rest
      ⟨group :: run.groups, run.dotted, run.rest⟩
    | _, _, _ => ⟨[], false, text⟩

/-- The groups that `text` starts with and what follows them: all eight, or a double colon in
place of one or more zero groups. -/
def read (text : List Char) : Option (List UInt16 × List Char) :=
  let head := readGroups 8 true text
  if head.groups.length = 8 then some (head.groups, head.rest)
  else if head.dotted then none
  else match head.rest with
    | ':' :: ':' :: rest =>
      let tail := readGroups (7 - head.groups.length) true rest
      some (head.groups ++ List.replicate (8 - head.groups.length - tail.groups.length) 0 ++
        tail.groups, tail.rest)
    | _ => none

/-- The address that is exactly `text`. -/
def parse? (text : List Char) : Option IPv6 :=
  match read text with
  | some (groups, []) => if h : groups.length = 8 then some ⟨groups, h⟩ else none
  | _ => none

/-- How many zero groups stand together at the front. -/
def zeros (groups : List UInt16) : Nat := (groups.takeWhile (· == 0)).length

/-- Where the longest run of zero groups starts, the first of equal ones, and its length. -/
def longestZeros (groups : List UInt16) : Nat × Nat :=
  (List.range groups.length).foldl (fun best start =>
    let size := zeros (groups.drop start)
    if best.2 < size then (start, size) else best) (0, 0)

def groupsText (groups : List UInt16) : String :=
  ":".intercalate (groups.map fun group => String.ofList (Nat.toDigits 16 group.toNat))

/-- The IPv4 address in an IPv4-mapped address. -/
def mapped? (address : IPv6) : Option IPv4 :=
  match address.groups with
  | [0, 0, 0, 0, 0, 0xffff, high, low] =>
    some ⟨UInt8.ofNat (high.toNat / 256), UInt8.ofNat (high.toNat % 256),
      UInt8.ofNat (low.toNat / 256), UInt8.ofNat (low.toNat % 256)⟩
  | _ => none

def text (address : IPv6) : String :=
  match address.mapped? with
  | some mapped => "::ffff:" ++ mapped.text
  | none =>
    let (start, size) := longestZeros address.groups
    if 1 < size then
      groupsText (address.groups.take start) ++ "::" ++
        groupsText (address.groups.drop (start + size))
    else groupsText address.groups

end IPv6

inductive IPAddress
  | v4 (address : IPv4)
  | v6 (address : IPv6)
  deriving DecidableEq

namespace IPAddress

def text : IPAddress → String
  | .v4 address => address.text
  | .v6 address => address.text

def parse? (text : List Char) : Option IPAddress :=
  match IPv4.parse? text with
  | some address => some (.v4 address)
  | none => (IPv6.parse? text).map .v6

end IPAddress

inductive Endpoint
  | v4 (address : IPv4) (port : UInt16)
  /-- The zone tells apart links on which the same address may be in use; zone 0 is left out. -/
  | v6 (address : IPv6) (port : UInt16) (zone : UInt32)
  deriving DecidableEq

namespace Endpoint

def ofAddress (port : UInt16) : IPAddress → Endpoint
  | .v4 address => .v4 address port
  | .v6 address => .v6 address port 0

def address : Endpoint → IPAddress
  | .v4 address _ => .v4 address
  | .v6 address _ _ => .v6 address

/-- The address, in brackets if it has colons, and the port. A zone stands in the brackets too. -/
def text : Endpoint → String
  | .v4 address port => s!"{address.text}:{port.toNat}"
  | .v6 address port zone =>
    let zone := if zone = 0 then "" else s!"%{zone.toNat}"
    s!"[{address.text}{zone}]:{port.toNat}"

/-- A colon and a port number. -/
def readPort : List Char → Option UInt16
  | ':' :: digits => (decimal? UInt16.size digits).map UInt16.ofNat
  | _ => none

/-- A percent sign and the number of a zone, or nothing. -/
def readZone : List Char → Option UInt32
  | [] => some 0
  | '%' :: digits => (decimal? UInt32.size digits).map UInt32.ofNat
  | _ => none

def parse? (text : List Char) : Option Endpoint :=
  match text with
  | '[' :: rest => do
    let inside := rest.takeWhile (· ≠ ']')
    let address ← IPv6.parse? (inside.takeWhile (· ≠ '%'))
    let zone ← readZone (inside.dropWhile (· ≠ '%'))
    return .v6 address (← readPort ((rest.dropWhile (· ≠ ']')).drop 1)) zone
  | _ => do
    let (address, rest) ← IPv4.read text
    return .v4 address (← readPort rest)

end Endpoint
end StubDns
