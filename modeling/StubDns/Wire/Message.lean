import StubDns.Wire.Bytes

/-! Positions in a message that is read or written, where every read is one checked `take` and every
write one checked `put`; and the header that opens every DNS message: six big-endian words. -/
namespace StubDns

structure Cursor where
  message : Bytes
  position : Nat
  deriving DecidableEq, Repr

/-- Reading moves a cursor or fails; a primitive that fails leaves the cursor where it was. -/
abbrev Reading := EStateM WireError Cursor

namespace Cursor

def start (message : Bytes) : Cursor := ⟨message, 0⟩

/-- The end of the message is a position, beyond it there is none. -/
def startAt (message : Bytes) (position : Nat) : Except WireError Cursor :=
  if position ≤ message.length then .ok ⟨message, position⟩ else .error .truncated

def remaining (cursor : Cursor) : Nat := cursor.message.length - cursor.position

/-- The bytes not yet read. -/
def rest (cursor : Cursor) : Bytes := cursor.message.drop cursor.position

end Cursor

namespace Reading

def position : Reading Nat := do return (← get).position

def seek (position : Nat) : Reading Unit := do
  match Cursor.startAt (← get).message position with
  | .ok cursor => set cursor
  | .error reason => throw reason

/-- The next `count` bytes, all or nothing. -/
def take (count : Nat) : Reading Bytes := do
  let cursor ← get
  match cursor.message.slice? cursor.position count with
  | some bytes =>
    set { cursor with position := cursor.position + count }
    return bytes
  | none => throw .truncated

def skip (count : Nat) : Reading Unit := do let _ ← take count

/-- The next byte, without moving past it. -/
def peek : Reading UInt8 := do
  match (← get).rest with
  | byte :: _ => return byte
  | [] => throw .truncated

def uint8 : Reading UInt8 := do return UInt8.ofNat (← take 1).toNat

def uint16 : Reading UInt16 := do return UInt16.ofNat (← take 2).toNat

def uint32 : Reading UInt32 := do return UInt32.ofNat (← take 4).toNat

/-- Runs a reading from the start of `message`, or from anywhere else in it. -/
def valueAt {α : Type} (reading : Reading α) (message : Bytes) (position : Nat) :
    Except WireError α :=
  match reading.run ⟨message, position⟩ with
  | .ok value _ => .ok value
  | .error reason _ => .error reason

end Reading

structure Writer (capacity : Nat) where
  buffer : Buffer capacity
  position : Nat
  deriving DecidableEq

/-- Writing moves a writer or fails; what a failed sequence wrote before it failed stays. -/
abbrev Writing (capacity : Nat) := EStateM WireError (Writer capacity)

namespace Writer
variable {capacity : Nat}

def start (buffer : Buffer capacity) : Writer capacity := ⟨buffer, 0⟩

/-- The end of the buffer is a position, beyond it there is none. -/
def startAt (buffer : Buffer capacity) (position : Nat) : Except WireError (Writer capacity) :=
  if position ≤ capacity then .ok ⟨buffer, position⟩ else .error .bufferFull

/-- Everything before the position, what was there before the first write included. -/
def written (writer : Writer capacity) : Bytes := writer.buffer.bytes.take writer.position

end Writer

namespace Writing
variable {capacity : Nat}

def position : Writing capacity Nat := do return (← get).position

/-- All of `data`, or nothing of it. -/
def put (data : Bytes) : Writing capacity Unit := do
  let writer ← get
  if writer.position + data.length ≤ capacity then
    set (σ := Writer capacity)
      ⟨writer.buffer.overwrite writer.position data, writer.position + data.length⟩
  else
    throw .bufferFull

def uint8 (byte : UInt8) : Writing capacity Unit := put [byte]

def uint16 (word : UInt16) : Writing capacity Unit := put (Bytes.ofUInt16 word)

end Writing

structure Header where
  id : UInt16 := 0
  flags : UInt16 := 0
  qdcount : UInt16 := 0
  ancount : UInt16 := 0
  nscount : UInt16 := 0
  arcount : UInt16 := 0
  deriving DecidableEq, Repr

namespace Header

def size : Nat := 12

def responseFlag : UInt16 := 0x8000
def truncatedFlag : UInt16 := 0x0200
def recursionFlag : UInt16 := 0x0100
def rcodeMask : UInt16 := 0x000f

/-- A standard recursive query with one question. -/
def query (id : UInt16) : Header := { id, flags := recursionFlag, qdcount := 1 }

def isResponse (header : Header) : Bool := header.flags &&& responseFlag != 0

def isTruncated (header : Header) : Bool := header.flags &&& truncatedFlag != 0

def rcode (header : Header) : UInt16 := header.flags &&& rcodeMask

def put {capacity : Nat} (header : Header) : Writing capacity Unit := do
  Writing.uint16 header.id
  Writing.uint16 header.flags
  Writing.uint16 header.qdcount
  Writing.uint16 header.ancount
  Writing.uint16 header.nscount
  Writing.uint16 header.arcount

def read : Reading Header := do
  let id ← Reading.uint16
  let flags ← Reading.uint16
  let qdcount ← Reading.uint16
  let ancount ← Reading.uint16
  let nscount ← Reading.uint16
  let arcount ← Reading.uint16
  return { id, flags, qdcount, ancount, nscount, arcount }

end Header
end StubDns
