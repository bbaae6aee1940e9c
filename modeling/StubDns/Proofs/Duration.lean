import Mathlib.Algebra.Group.Nat.Defs
import Mathlib.Order.Monotone.Basic
import StubDns.Retry

/-! Waits as exact numbers of nanoseconds, up to the longest one. -/
namespace StubDns

namespace Duration

theorem toNanos_injective {first second : Duration} (h : first.toNanos = second.toNanos) :
    first = second := by
  obtain ⟨seconds, nanos, hnanos⟩ := first
  obtain ⟨seconds', nanos', hnanos'⟩ := second
  simp only [toNanos, nanosPerSecond] at h hnanos hnanos'
  have hseconds : seconds = seconds' := by
    apply UInt64.toNat_inj.mp
    omega
  subst hseconds
  have hsame : nanos = nanos' := by omega
  subst hsame
  rfl

theorem toNanos_longest : longest.toNanos = 18446744073709551616 * 1000000000 - 1 := rfl

/-- Carrying loses nothing until the longest duration is passed. -/
theorem toNanos_carry (seconds nanos : Nat) :
    (carry seconds nanos).toNanos = min (seconds * nanosPerSecond + nanos) longest.toNanos := by
  rw [toNanos_longest]
  unfold carry nanosPerSecond
  dsimp only
  split
  · next hlt =>
    have hsize : UInt64.size = 18446744073709551616 := rfl
    have hexact : (UInt64.ofNat (seconds + nanos / 1000000000)).toNat =
        seconds + nanos / 1000000000 := UInt64.toNat_ofNat_of_lt' hlt
    simp only [toNanos, hexact, fraction, nanosPerSecond]
    omega
  · next hge =>
    have hsize : UInt64.size = 18446744073709551616 := rfl
    rw [toNanos_longest]
    omega

theorem toNanos_scale (duration : Duration) (factor : Nat) :
    (duration.scale factor).toNanos = min (duration.toNanos * factor) longest.toNanos := by
  have hexact : duration.toNanos * factor =
      duration.seconds.toNat * factor * nanosPerSecond + duration.nanos.val * factor := by
    rw [toNanos, Nat.add_mul, Nat.mul_right_comm]
  rw [scale, toNanos_carry, hexact]

/-- The seconds of a result fit their word, or the result is the longest duration. -/
theorem carry_fits_or_longest (seconds nanos : Nat) :
    seconds + nanos / nanosPerSecond < UInt64.size ∨ carry seconds nanos = longest := by
  by_cases hfits : seconds + nanos / nanosPerSecond < UInt64.size
  · exact .inl hfits
  · exact .inr (if_neg hfits)

theorem toNanos_add (first second : Duration) :
    (first.add second).toNanos = min (first.toNanos + second.toNanos) longest.toNanos := by
  have hexact : first.toNanos + second.toNanos =
      (first.seconds.toNat + second.seconds.toNat) * nanosPerSecond +
        (first.nanos.val + second.nanos.val) := by
    simp only [toNanos, Nat.add_mul]
    omega
  rw [add, toNanos_carry, hexact]

end Duration

namespace RetryPolicy

theorem toNanos_timeoutFor (policy : RetryPolicy) (attempt : Nat) :
    (policy.timeoutFor attempt).toNanos =
      min (policy.minWait.toNanos * 2 ^ min attempt 31) Duration.longest.toNanos := by
  rw [timeoutFor, Duration.toNanos_scale, Nat.one_shiftLeft]

/-- The wait of an attempt is the first one, doubled once for each attempt before it but 31 times at
most, and stops at the longest duration. -/
theorem timeoutFor_eq_iff {policy : RetryPolicy} {attempt : Nat} {wait : Duration} :
    policy.timeoutFor attempt = wait ↔
      wait.toNanos = min (policy.minWait.toNanos * 2 ^ min attempt 31) Duration.longest.toNanos := by
  rw [← toNanos_timeoutFor]
  constructor
  · intro h
    rw [h]
  · intro h
    exact Duration.toNanos_injective h.symm

/-- The waits of the first `count` attempts together. -/
def waited (policy : RetryPolicy) : (count : Nat) → Duration
  | 0 => Duration.zero
  | count + 1 => (policy.waited count).add (policy.timeoutFor count)

theorem totalWait_eq_waited (policy : RetryPolicy) :
    policy.totalWait = policy.waited policy.maxAttempts.toNat := by
  unfold totalWait
  induction policy.maxAttempts.toNat with
  | zero => rfl
  | succ count ih => rw [Nat.fold_succ, ih, waited]

/-- How many times the first wait goes into the first `count` waits, with nothing cut off. -/
def firstWaitsIn (count : Nat) : Nat :=
  if count ≤ 32 then 2 ^ count - 1 else 2 ^ 32 - 1 + (count - 32) * 2 ^ 31

theorem firstWaitsIn_succ (count : Nat) :
    firstWaitsIn (count + 1) = firstWaitsIn count + 2 ^ min count 31 := by
  unfold firstWaitsIn
  rcases Nat.lt_trichotomy count 32 with hlt | rfl | hgt
  · have hnext : count + 1 ≤ 32 := hlt
    have hpos : 0 < 2 ^ count := Nat.two_pow_pos count
    rw [if_pos hnext, if_pos (Nat.le_of_lt hlt), Nat.min_eq_left (Nat.le_of_lt_succ hlt),
      Nat.pow_succ]
    omega
  · rfl
  · have hnext : ¬ count + 1 ≤ 32 := by omega
    rw [if_neg hnext, if_neg (Nat.not_le_of_gt hgt), Nat.min_eq_right (by omega)]
    omega

/-- Waits that are cut off one by one add up to the exact sum, cut off once. -/
theorem toNanos_waited (policy : RetryPolicy) (count : Nat) :
    (policy.waited count).toNanos =
      min (policy.minWait.toNanos * firstWaitsIn count) Duration.longest.toNanos := by
  -- nothing is taken away again, so a sum that was cut off stays so
  induction count with
  | zero => simp [waited, firstWaitsIn, Duration.zero, Duration.toNanos, Duration.fraction]
  | succ count ih =>
    rw [waited, Duration.toNanos_add, ih, toNanos_timeoutFor, firstWaitsIn_succ, Nat.mul_add]
    omega

/-- Nothing wraps where the wait of an attempt is put together and added to other waits: every
number on the way fits the word it is kept in, and seconds that do not make the longest duration. -/
structure FitsWords (policy : RetryPolicy) (attempt : UInt32) : Prop where
  /-- The shift loses no bit of its 32. -/
  factor : ((1 : UInt32) <<< min attempt 31).toNat = 1 <<< min attempt.toNat 31
  /-- Nanoseconds are multiplied in 64 bits. -/
  scaledNanos : policy.minWait.nanos.val * 1 <<< min attempt.toNat 31 < UInt64.size
  scaledSeconds : policy.minWait.seconds.toNat * 1 <<< min attempt.toNat 31 +
      policy.minWait.nanos.val * 1 <<< min attempt.toNat 31 / nanosPerSecond < UInt64.size ∨
    policy.timeoutFor attempt.toNat = Duration.longest
  /-- Nanoseconds are added in 32 bits. -/
  addedNanos : ∀ wait : Duration,
    wait.nanos.val + (policy.timeoutFor attempt.toNat).nanos.val < UInt32.size
  addedSeconds : ∀ wait : Duration,
    wait.seconds.toNat + (policy.timeoutFor attempt.toNat).seconds.toNat +
        (wait.nanos.val + (policy.timeoutFor attempt.toNat).nanos.val) / nanosPerSecond <
      UInt64.size ∨
    wait.add (policy.timeoutFor attempt.toNat) = Duration.longest

theorem fitsWords (policy : RetryPolicy) (attempt : UInt32) : policy.FitsWords attempt := by
  constructor
  case factor =>
    rw [UInt32.toNat_shiftLeft, UInt32.toNat_min]
    change 1 <<< (min attempt.toNat 31 % 32) % 2 ^ 32 = 1 <<< min attempt.toNat 31
    have hshift : min attempt.toNat 31 < 32 := by omega
    rw [Nat.mod_eq_of_lt hshift, Nat.one_shiftLeft]
    exact Nat.mod_eq_of_lt (Nat.pow_lt_pow_right (Nat.lt_succ_self 1) hshift)
  case scaledNanos =>
    rw [Nat.one_shiftLeft]
    calc policy.minWait.nanos.val * 2 ^ min attempt.toNat 31
        ≤ 1000000000 * 2 ^ 31 := Nat.mul_le_mul (Nat.le_of_lt policy.minWait.nanos.isLt)
          (Nat.pow_le_pow_right (Nat.succ_pos 1) (Nat.min_le_right _ _))
      _ < UInt64.size := by decide
  case scaledSeconds => exact Duration.carry_fits_or_longest _ _
  case addedNanos =>
    intro wait
    have hwait : wait.nanos.val < 1000000000 := wait.nanos.isLt
    have hmore : (policy.timeoutFor attempt.toNat).nanos.val < 1000000000 := Fin.isLt _
    have hsize : UInt32.size = 4294967296 := rfl
    omega
  case addedSeconds =>
    intro wait
    exact Duration.carry_fits_or_longest _ _

theorem monotone_timeoutFor (policy : RetryPolicy) :
    Monotone fun attempt : Nat => (policy.timeoutFor attempt).toNanos := by
  intro earlier later hle
  have hpow : 2 ^ min earlier 31 ≤ 2 ^ min later 31 := by
    apply Nat.pow_le_pow_right (Nat.succ_pos 1)
    omega
  have hexact := Nat.mul_le_mul_left policy.minWait.toNanos hpow
  simp only [toNanos_timeoutFor]
  omega

theorem toNanos_timeoutFor_succ {attempt : Nat} (policy : RetryPolicy) (h : attempt < 31) :
    (policy.timeoutFor (attempt + 1)).toNanos =
      min Duration.longest.toNanos (2 * (policy.timeoutFor attempt).toNanos) := by
  have hthis : min attempt 31 = attempt := Nat.min_eq_left (Nat.le_of_lt h)
  have hnext : min (attempt + 1) 31 = attempt + 1 := Nat.min_eq_left h
  rw [toNanos_timeoutFor, toNanos_timeoutFor, hthis, hnext, Nat.pow_succ, ← Nat.mul_assoc]
  omega

/-- The waits of a policy in closed form, exact up to the longest duration `18446744073709551615 s
999999999 ns`: a wait doubles with each of the first 31 attempts after the first one and then stays
the same, and all of them together come to the sum of the exact waits, cut off once. -/
theorem waits_in_closed_form (policy : RetryPolicy) (attempt : UInt32) :
    let longest := (2 ^ 64 - 1) * 1000000000 + 999999999
    let first := policy.minWait.toNanos
    let count := policy.maxAttempts.toNat
    (policy.timeoutFor attempt.toNat).toNanos = min longest (first * 2 ^ min attempt.toNat 31) ∧
    (Monotone fun earlier : Nat => (policy.timeoutFor earlier).toNanos) ∧
    (attempt.toNat < 31 → (policy.timeoutFor (attempt.toNat + 1)).toNanos =
      min longest (2 * (policy.timeoutFor attempt.toNat).toNanos)) ∧
    policy.totalWait.toNanos = min longest (first *
      if count ≤ 32 then 2 ^ count - 1 else 2 ^ 32 - 1 + (count - 32) * 2 ^ 31) ∧
    policy.FitsWords attempt := by
  intro longest first count
  have hlongest : Duration.longest.toNanos = longest := rfl
  refine ⟨?_, policy.monotone_timeoutFor, ?_, ?_, policy.fitsWords attempt⟩
  · rw [toNanos_timeoutFor, hlongest, Nat.min_comm]
  · intro h
    rw [toNanos_timeoutFor_succ policy h, hlongest]
  · rw [totalWait_eq_waited, toNanos_waited, hlongest, Nat.min_comm]
    rfl

/-- As many attempts as there can be, two seconds apart at first: the sum falls just short of the
longest duration. -/
theorem most_waits_of_two_seconds :
    let policy : RetryPolicy := { maxAttempts := 4294967295, minWait := Duration.ofMillis 2000 }
    (30 : UInt32).toNat < 31 ∧
    (policy.timeoutFor 31).toNanos =
      min ((2 ^ 64 - 1) * 1000000000 + 999999999) (2 * (policy.timeoutFor 30).toNanos) ∧
    policy.totalWait.toNanos = (2 ^ 64 - 31 * 2 ^ 32 - 2) * 1000000000 := by
  intro policy
  have hearly : (30 : UInt32).toNat < 31 := by decide
  obtain ⟨_, _, hdoubles, htotal, _⟩ := waits_in_closed_form policy 30
  exact ⟨hearly, hdoubles hearly, htotal.trans (by decide +kernel)⟩

end RetryPolicy
end StubDns
