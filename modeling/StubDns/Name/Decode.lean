import StubDns.Name.Encode
import StubDns.Wire.Message

/-! Names on the wire: stepping over one without following its pointer, and decoding one that may be
compressed to dotted text. -/
namespace StubDns

inductive LengthByte
  /-- Zero: the name ends. -/
  | root
  /-- One to 63 label bytes follow. -/
  | label (size : Nat)
  /-- Exactly one of the two top bits is set. -/
  | reserved
  /-- Both top bits are set; the rest is the high part of a message offset. -/
  | pointer (high : Nat)
  deriving DecidableEq, Repr

def LengthByte.ofByte (byte : UInt8) : LengthByte :=
  if byte.toNat = 0 then .root
  else if byte.toNat < 64 then .label byte.toNat
  else if byte.toNat < 192 then .reserved
  else .pointer (byte.toNat - 192)

/-- The size of the name that `bytes` start with, pointer or final zero byte included. -/
def Name.extent : Bytes → Except WireError Nat
  | [] => .error .truncated
  | byte :: rest =>
    match LengthByte.ofByte byte with
    | .root => .ok 1
    | .label size =>
      if size ≤ rest.length then (extent (rest.drop size)).map (1 + size + ·)
      else .error .truncated
    | .reserved => .error (.badLabelType byte)
    | .pointer _ => if rest = [] then .error .truncated else .ok 2
termination_by bytes => bytes.length
decreasing_by simp only [List.length_drop, List.length_cons]; omega

def Reading.skipName : Reading Unit := do
  match Name.extent (← get).rest with
  | .ok size => skip size
  | .error reason => throw reason

namespace Name

/-- How many pointers one name may take. -/
def maxPointerHops : Nat := 128

/-- What a decoding has put out, and the length of the text or why there is none. -/
structure Decoding where
  written : Bytes
  result : Except WireError Nat

/-- Decodes from `position` on. A separator is put out as soon as more is to come, so a pointer to
a zero byte leaves one too many, which the length then leaves out. -/
def decodeFrom (message : Bytes) (position hops budget : Nat) (written : Bytes) : Decoding :=
  match message[position]? with
  | none => ⟨written, .error .truncated⟩
  | some byte =>
    match LengthByte.ofByte byte with
    | .reserved => ⟨written, .error (.badLabelType byte)⟩
    | .root => ⟨written, if written = [] then .error .emptyName else .ok (written.length - 1)⟩
    | .pointer high =>
      match message[position + 1]?, hops with
      | none, _ => ⟨written, .error .truncated⟩
      | some _, 0 => ⟨written, .error .tooManyPointers⟩
      | some low, hops + 1 =>
        let target := high * 256 + low.toNat
        if target < message.length then decodeFrom message target hops budget written
        else ⟨written, .error (.pointerOutOfRange target)⟩
    | .label size =>
      if budget < size + 1 then ⟨written, .error .nameTooLong⟩
      else match message.slice? (position + 1) size with
        | none => ⟨written, .error .truncated⟩
        | some label =>
          match message[position + 1 + size]? with
          | none => ⟨written ++ label, .error .truncated⟩
          | some next =>
            if next = 0 then ⟨written ++ label, .ok (written.length + label.length)⟩
            else decodeFrom message (position + 1 + size) hops (budget - (size + 1))
              (written ++ label ++ [dot])
termination_by hops + budget

/-- The name at `start` of `message`, from no text and with the full budgets. -/
def decode (message : Bytes) (start : Nat) : Decoding :=
  decodeFrom message start maxPointerHops sizeMax []

/-- Decodes the name at `start` into `out`, which must be able to hold any name. -/
def copy {capacity : Nat} (message : Bytes) (start : Nat) (out : Buffer capacity) :
    Except WireError Nat × Buffer capacity :=
  if capacity < sizeMax then (.error .outputTooSmall, out)
  else
    let decoding := decode message start
    (decoding.result, out.overwrite 0 decoding.written)

end Name
end StubDns
