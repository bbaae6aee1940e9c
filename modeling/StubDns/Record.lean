import StubDns.Address.IPv4
import StubDns.Name.Decode

/-! Resource records, and the walk to the first one that serves. -/
namespace StubDns

/-- The record types the resolver asks for. -/
inductive RecordType
  | a
  | ptr
  deriving DecidableEq, Repr

namespace RecordType

def code : RecordType → UInt16
  | .a => 1
  | .ptr => 12

def mnemonic : RecordType → String
  | .a => "A"
  | .ptr => "PTR"

end RecordType

/-- The Internet class, the only one in use. -/
def classIN : UInt16 := 1

/-- The fixed part of a record, between its owner name and its data. -/
structure RecordHeader where
  rtype : UInt16
  rclass : UInt16
  ttl : UInt32
  rdlength : UInt16
  deriving DecidableEq, Repr

namespace RecordHeader

def size : Nat := 10

def read : Reading RecordHeader := do
  let rtype ← Reading.uint16
  let rclass ← Reading.uint16
  let ttl ← Reading.uint32
  let rdlength ← Reading.uint16
  return { rtype, rclass, ttl, rdlength }

/-- Of the wanted type, in the Internet class. -/
def isOf (header : RecordHeader) (wanted : RecordType) : Bool :=
  header.rtype == wanted.code && header.rclass == classIN

end RecordHeader

/-- A record without its owner name. -/
structure Record where
  header : RecordHeader
  /-- Where the data starts in the message. -/
  start : Nat
  data : Bytes
  deriving DecidableEq, Repr

namespace Record

def read : Reading Record := do
  Reading.skipName
  let header ← RecordHeader.read
  let start ← Reading.position
  let data ← Reading.take header.rdlength.toNat
  return { header, start, data }

/-- What `pick` takes from the first record that it takes anything from, among `count` records.
Later records are not read. -/
def first {α : Type} (pick : Record → Option α) : Nat → Reading (Option α)
  | 0 => return none
  | count + 1 => do
    match pick (← read) with
    | some value => return some value
    | none => first pick count

/-- The address of an Internet address record of the right size. -/
def address? (record : Record) : Option IPv4 :=
  if record.header.isOf .a then
    match record.data with
    | [a, b, c, d] => some ⟨a, b, c, d⟩
    | _ => none
  else none

/-- Where the name of an Internet pointer record starts. -/
def nameStart? (record : Record) : Option Nat :=
  if record.header.isOf .ptr then some record.start else none

end Record
end StubDns
