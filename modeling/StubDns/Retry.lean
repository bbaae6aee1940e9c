/-! Spans of time in seconds and nanoseconds, where arithmetic stops at the longest one; and how
often a query is sent and how long each attempt waits, twice as long as the last. -/
namespace StubDns

def nanosPerSecond : Nat := 1000000000

structure Duration where
  seconds : UInt64
  nanos : Fin nanosPerSecond
  deriving DecidableEq, Repr

namespace Duration

/-- What is left of `nanos` beyond whole seconds. -/
def fraction (nanos : Nat) : Fin nanosPerSecond :=
  ⟨nanos % nanosPerSecond, Nat.mod_lt nanos (Nat.succ_pos 999999999)⟩

def zero : Duration := ⟨0, fraction 0⟩

def longest : Duration := ⟨UInt64.ofNat (UInt64.size - 1), fraction (nanosPerSecond - 1)⟩

/-- The exact length in nanoseconds. -/
def toNanos (duration : Duration) : Nat :=
  duration.seconds.toNat * nanosPerSecond + duration.nanos.val

def ofMillis (millis : UInt64) : Duration :=
  ⟨millis / 1000, fraction (millis.toNat % 1000 * 1000000)⟩

/-- Carries whole seconds out of `nanos`; what passes the longest duration becomes it. -/
def carry (seconds nanos : Nat) : Duration :=
  let seconds := seconds + nanos / nanosPerSecond
  if seconds < UInt64.size then ⟨UInt64.ofNat seconds, fraction nanos⟩ else longest

def add (first second : Duration) : Duration :=
  carry (first.seconds.toNat + second.seconds.toNat) (first.nanos.val + second.nanos.val)

def scale (duration : Duration) (factor : Nat) : Duration :=
  carry (duration.seconds.toNat * factor) (duration.nanos.val * factor)

/-- Whole seconds, a point and nine digits. -/
def text (duration : Duration) : String :=
  let digits := Nat.toDigits 10 duration.nanos.val
  s!"{duration.seconds.toNat}." ++
    String.ofList (List.replicate (9 - digits.length) '0' ++ digits)

end Duration

structure RetryPolicy where
  maxAttempts : UInt32 := 4
  minWait : Duration := Duration.ofMillis 1000
  deriving DecidableEq, Repr

namespace RetryPolicy

/-- The wait of the attempt with this number, counted from zero. It doubles 31 times at most. -/
def timeoutFor (policy : RetryPolicy) (attempt : Nat) : Duration :=
  policy.minWait.scale (1 <<< min attempt 31)

/-- All waits together, the longest that a lookup can take. -/
def totalWait (policy : RetryPolicy) : Duration :=
  policy.maxAttempts.toNat.fold (fun attempt _ wait => wait.add (policy.timeoutFor attempt))
    Duration.zero

end RetryPolicy
end StubDns
