/-! Byte strings and the big-endian words they hold, buffers whose size stays whatever is laid over
them, and why wire data cannot be read or written. -/
namespace StubDns

abbrev Bytes := List UInt8

namespace Bytes

/-- The number whose base-256 digits are `bytes`, most significant first. -/
def toNat (bytes : Bytes) : Nat :=
  bytes.foldl (fun word byte => word * 256 + byte.toNat) 0

/-- The two bytes of `word`, the high one first. -/
def ofUInt16 (word : UInt16) : Bytes :=
  [UInt8.ofNat (word.toNat / 256), UInt8.ofNat (word.toNat % 256)]

/-- The `count` bytes from `position` on, if all of them exist. -/
def slice? (bytes : Bytes) (position count : Nat) : Option Bytes :=
  if position + count ≤ bytes.length then some ((bytes.drop position).take count) else none

theorem length_ofUInt16 (word : UInt16) : (ofUInt16 word).length = 2 := rfl

/-- A word reads back from the bytes it was written as. -/
theorem toNat_ofUInt16 (word : UInt16) : toNat (ofUInt16 word) = word.toNat := by
  have := word.toNat_lt
  simp only [toNat, ofUInt16, List.foldl_cons, List.foldl_nil, UInt8.toNat_ofNat']
  omega

theorem length_slice? {bytes part : Bytes} {position count : Nat}
    (h : bytes.slice? position count = some part) : part.length = count := by
  unfold slice? at h
  split at h
  · cases h
    rw [List.length_take, List.length_drop]
    omega
  · contradiction

end Bytes

structure Buffer (capacity : Nat) where
  bytes : Bytes
  length_bytes : bytes.length = capacity
  deriving DecidableEq

namespace Buffer
variable {capacity : Nat}

def zero (capacity : Nat) : Buffer capacity :=
  ⟨List.replicate capacity 0, List.length_replicate⟩

def ofBytes (bytes : Bytes) : Buffer bytes.length := ⟨bytes, rfl⟩

/-- Lays `data` over the bytes from `position` on; what would pass the end is lost. -/
def overwrite (buffer : Buffer capacity) (position : Nat) (data : Bytes) : Buffer capacity where
  bytes :=
    (buffer.bytes.take position ++ data ++ buffer.bytes.drop (position + data.length)).take capacity
  length_bytes := by
    have := buffer.length_bytes
    simp only [List.length_take, List.length_append, List.length_drop]
    omega

/-- Data that fits replaces exactly the bytes it covers. -/
theorem bytes_overwrite {buffer : Buffer capacity} {position : Nat} {data : Bytes}
    (h : position + data.length ≤ capacity) :
    (buffer.overwrite position data).bytes =
      buffer.bytes.take position ++ data ++ buffer.bytes.drop (position + data.length) := by
  have := buffer.length_bytes
  apply List.take_of_length_le
  simp only [List.length_append, List.length_take, List.length_drop]
  omega

end Buffer

/-- Lower-case hexadecimal with at least `width` digits. -/
def hexadecimal (width word : Nat) : String :=
  let digits := Nat.toDigits 16 word
  "0x" ++ String.ofList (List.replicate (width - digits.length) '0' ++ digits)

inductive WireError
  | truncated
  | bufferFull
  | emptyLabel
  | labelTooLong
  | nameTooLong
  | emptyName
  /-- A length byte with exactly one of its two top bits set. -/
  | badLabelType (byte : UInt8)
  | pointerOutOfRange (target : Nat)
  | tooManyPointers
  | outputTooSmall
  deriving DecidableEq, Repr

def WireError.message : WireError → String
  | .truncated => "Message truncated"
  | .bufferFull => "Buffer full"
  | .emptyLabel => "Empty label"
  | .labelTooLong => "Label longer than 63 bytes"
  | .nameTooLong => "Name exceeds maximum encoded length"
  | .emptyName => "Empty name"
  | .badLabelType byte => s!"Invalid label type {hexadecimal 2 byte.toNat}"
  | .pointerOutOfRange target => s!"Compression pointer to offset {target} outside message"
  | .tooManyPointers => "Too many compression pointers"
  | .outputTooSmall => "Output buffer smaller than maximum name size"

end StubDns
