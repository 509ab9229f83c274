/-!
# Retry settings

How often a call is attempted and how long to wait between two attempts. The waits grow by a
constant factor up to a cap. The curve is computed in floating point and cut to whole
milliseconds.
-/

namespace BucketMigration

/-- Attempt budget and backoff curve. -/
structure RetrySettings where
  maxAttempts : Nat := 3
  initialBackoffMs : Nat := 100
  maxBackoffMs : Nat := 30000
  backoffMultiplier : Float := 2.0
deriving BEq, Repr

namespace RetrySettings

/-- Settings that make exactly one attempt. -/
def noRetry : RetrySettings :=
  { maxAttempts := 1 }

/-- The attempts that are made at most: the first one is always made. -/
def attempts (settings : RetrySettings) : Nat :=
  max settings.maxAttempts 1

/-- `acc * base ^ n` by squaring, the factors multiplied from the lowest binary digit of `n`. -/
def powerOnto (acc base : Float) (n : Nat) : Float :=
  if n = 0 then acc
  else powerOnto (if n % 2 = 1 then acc * base else acc) (base * base) (n / 2)
termination_by n
decreasing_by omega

/-- The smaller number, or the other one when one is not a number. -/
def lesser (a b : Float) : Float :=
  if a.isNaN then b else if b.isNaN then a else if b < a then b else a

/-- The larger number, or the other one when one is not a number. -/
def greater (a b : Float) : Float :=
  if a.isNaN then b else if b.isNaN then a else if a < b then b else a

def ofWord (n : Nat) : Float :=
  (UInt64.ofNat n).toFloat

/-- Milliseconds to wait after the given failed attempt, the first being number 1. -/
def backoff (settings : RetrySettings) (attempt : Nat) : Nat :=
  let growth := powerOnto 1.0 settings.backoffMultiplier (min (attempt - 1) 63)
  let raw := ofWord settings.initialBackoffMs * growth
  (greater (lesser raw (ofWord settings.maxBackoffMs)) 0.0).toUInt64.toNat

theorem attempts_pos (settings : RetrySettings) : 0 < settings.attempts :=
  Nat.lt_of_lt_of_le Nat.zero_lt_one (Nat.le_max_right ..)

end RetrySettings

end BucketMigration
