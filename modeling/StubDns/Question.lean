import StubDns.Name.Decode
import StubDns.Name.Encode
import StubDns.Record

/-! What a query asks and the datagram that asks it; whether a datagram answers a query, and what
the answer is. -/
namespace StubDns

inductive Question
  /-- The address of a host, its name completed by the suffix. -/
  | address (hostname : Bytes) (suffix : Option Bytes)
  /-- The host name of an address. -/
  | name (target : IPv4)
  deriving DecidableEq, Repr

namespace Question
variable {capacity : Nat}

def recordType : Question → RecordType
  | .address .. => .a
  | .name _ => .ptr

def putName : Question → Writing capacity Nat
  | .address hostname suffix => Name.putHostname hostname suffix
  | .name target => Name.putReverse target

/-- The whole query; gives its size. -/
def put (question : Question) (id : UInt16) : Writing capacity Nat := do
  (Header.query id).put
  let _ ← question.putName
  Writing.uint16 question.recordType.code
  Writing.uint16 classIN
  Writing.position

/-- Builds the query at the front of `buffer`. A build that fails may leave a part of it there. -/
def build (question : Question) (id : UInt16) (buffer : Buffer capacity) :
    Except WireError Nat × Buffer capacity :=
  match (question.put id).run (Writer.start buffer) with
  | .ok size writer => (.ok size, writer.buffer)
  | .error reason writer => (.error reason, writer.buffer)

end Question

/-- Why a datagram is not taken for the answer. -/
inductive Rejection
  | tooShort (size : Nat)
  | idMismatch (expected got : UInt16)
  | notResponse
  | questionCount (count : UInt16)
  | noAnswers
  | questionMismatch
  | malformed (reason : WireError)
  | noMatchingRecord (wanted : RecordType)
  deriving DecidableEq, Repr

def Rejection.message : Rejection → String
  | .tooShort size => s!"datagram of {size} bytes carries no question"
  | .idMismatch expected got =>
    s!"transaction id {hexadecimal 4 got.toNat} does not match {hexadecimal 4 expected.toNat}"
  | .notResponse => "QR bit not set"
  | .questionCount count => s!"question count is {count.toNat}, expected 1"
  | .noAnswers => "answer section is empty"
  | .questionMismatch => "question section does not echo the query"
  | .malformed reason => "malformed response: " ++ reason.message
  | .noMatchingRecord wanted => s!"no usable {wanted.mnemonic} record in the answer section"

namespace Response

/-- A reading that fails makes the whole datagram malformed. -/
def reading {α : Type} (read : Reading α) (cursor : Cursor) : Except Rejection (α × Cursor) :=
  match read.run cursor with
  | .ok value cursor => .ok (value, cursor)
  | .error reason _ => .error (.malformed reason)

/-- Steps over the question, its type and its class. -/
def skipQuestion : Reading Unit := do
  Reading.skipName
  Reading.skip 4

/-- The response header, and a cursor on the first answer, of a datagram that answers the query:
right id, a response with one question and some answer, and the query's question, byte by byte as
far as the datagram's own question goes. -/
def answers (query response : Bytes) (id : UInt16) : Except Rejection (Header × Cursor) := do
  if response.length ≤ Header.size then throw (.tooShort response.length)
  let (header, cursor) ← reading Header.read (Cursor.start response)
  if header.id ≠ id then throw (.idMismatch id header.id)
  if !header.isResponse then throw .notResponse
  if header.qdcount ≠ 1 then throw (.questionCount header.qdcount)
  if header.ancount = 0 then throw .noAnswers
  let (_, cursor) ← reading skipQuestion cursor
  let asked := cursor.position - Header.size
  if query.slice? Header.size asked ≠ response.slice? Header.size asked then
    throw .questionMismatch
  return (header, cursor)

/-- What `pick` takes from the answers, or that no record of the wanted type serves. -/
def find {α : Type} (pick : Record → Option α) (wanted : RecordType)
    (query response : Bytes) (id : UInt16) : Except Rejection α := do
  let (header, cursor) ← answers query response id
  match ← reading (Record.first pick header.ancount.toNat) cursor with
  | (some value, _) => return value
  | (none, _) => throw (.noMatchingRecord wanted)

/-- The first usable address among the answers. -/
def address (query response : Bytes) (id : UInt16) : Except Rejection IPv4 :=
  find Record.address? .a query response id

/-- The name in the first pointer record, decoded into `out`. A name that cannot be decoded
rejects the datagram. -/
def name {capacity : Nat} (query response : Bytes) (id : UInt16) (out : Buffer capacity) :
    Except Rejection Nat × Buffer capacity :=
  match find Record.nameStart? .ptr query response id with
  | .error reason => (.error reason, out)
  | .ok start =>
    let (result, out) := Name.copy response start out
    (result.mapError .malformed, out)

end Response
end StubDns
