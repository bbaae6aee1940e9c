import StubDns.Address.IPv4
import StubDns.Wire.Message

/-! Names as dotted text, and how they are written label by label: each one after its length byte, a
zero byte after the last. -/
namespace StubDns.Name

/-- The longest label, in bytes. -/
def labelMax : Nat := 63

/-- An encoded name has fewer bytes than this; a decoded one is charged `length + 1` per label
and may use this budget up. -/
def sizeMax : Nat := 256

def dot : UInt8 := 46

/-- The pieces between the dots; a text without dots is one piece. -/
def labels (text : Bytes) : List Bytes := text.splitOn dot

theorem labels_append_dot (first second : Bytes) :
    labels (first ++ dot :: second) = labels first ++ labels second :=
  List.splitOnP_append_cons first second (p := (· == dot)) (beq_self_eq_true dot)

/-- The text without one trailing dot. -/
def dropDot (text : Bytes) : Bytes :=
  if text.getLast? = some dot then text.dropLast else text

/-- The suffix that completes `hostname`: none for a dotted host name, and an empty one is none. -/
def suffixFor (hostname : Bytes) (suffix : Option Bytes) : Option Bytes :=
  if dot ∈ hostname then none
  else (suffix.map dropDot).filter (· ≠ [])

/-- The name that a host name stands for. A trailing dot marks it as complete and is not part
of it; a name without dots is completed by the suffix. -/
def qualified (hostname : Bytes) (suffix : Option Bytes) : Bytes :=
  match suffixFor hostname suffix with
  | none => dropDot hostname
  | some suffix => dropDot hostname ++ dot :: suffix

variable {capacity : Nat}

/-- Writes one label of a name that has taken `encoded` bytes so far. Room must remain for the
final zero byte. -/
def putLabel (encoded : Nat) (label : Bytes) : Writing capacity Unit := do
  if label = [] then throw .emptyLabel
  else if labelMax < label.length then throw .labelTooLong
  else if sizeMax ≤ encoded + 1 + label.length + 1 then throw .nameTooLong
  else
    Writing.uint8 (UInt8.ofNat label.length)
    Writing.put label

/-- Writes the remaining labels and the final zero byte, and gives the size of the whole name. -/
def putLabels (encoded : Nat) : List Bytes → Writing capacity Nat
  | [] => do
    Writing.uint8 0
    return encoded + 1
  | label :: rest => do
    putLabel encoded label
    putLabels (encoded + 1 + label.length) rest

/-- The labels of a host name, completed by the suffix where it has no dot. -/
def questionLabels (hostname : Bytes) (suffix : Option Bytes) : List Bytes :=
  labels (dropDot hostname) ++ match suffixFor hostname suffix with
    | none => []
    | some suffix => labels suffix

theorem questionLabels_eq (hostname : Bytes) (suffix : Option Bytes) :
    questionLabels hostname suffix = labels (qualified hostname suffix) := by
  unfold questionLabels qualified
  cases suffixFor hostname suffix with
  | none => exact List.append_nil _
  | some suffix => exact (labels_append_dot _ _).symm

def putHostname (hostname : Bytes) (suffix : Option Bytes) : Writing capacity Nat :=
  if hostname = [] then throw .emptyName else putLabels 0 (questionLabels hostname suffix)

/-- Puts the decimal digits of `n` into `digits`, the last one before `start` and the others in
front of it. Gives the place of the first. -/
def putDigits (n : UInt8) : (start : Nat) → Buffer 3 → Nat × Buffer 3
  | 0, digits => (0, digits)
  | start + 1, digits =>
    let digits := digits.overwrite start [48 + n % 10]
    if n / 10 = 0 then (start, digits) else putDigits (n / 10) start digits

/-- An octet in decimal, and the scratch bytes that it was put together in. -/
def decimal (octet : UInt8) (digits : Buffer 3) : Bytes × Buffer 3 :=
  let (start, digits) := putDigits octet 3 digits
  (digits.bytes.drop start, digits)

/-- The labels `in-addr` and `arpa`. -/
def reverseZone : List Bytes :=
  [[105, 110, 45, 97, 100, 100, 114], [97, 114, 112, 97]]

/-- Writes octets as labels, all of them in the same scratch bytes, and the zone behind them. -/
def putOctets (encoded : Nat) : List UInt8 → Buffer 3 → Writing capacity Nat
  | [], _ => putLabels encoded reverseZone
  | octet :: octets, digits => do
    let (label, digits) := decimal octet digits
    putLabel encoded label
    putOctets (encoded + 1 + label.length) octets digits

/-- The name that is asked for the host name of `address`: its octets, last one first. -/
def putReverse (address : IPv4) : Writing capacity Nat :=
  putOctets 0 address.octets.reverse (Buffer.zero 3)

end StubDns.Name
