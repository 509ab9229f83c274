import BucketMigration.Text.Numeral

/-!
# Durations in messages

A duration in whole milliseconds is written in seconds when it is at least one, otherwise in
milliseconds, and nothing at all in nanoseconds. Trailing zeros of the fraction are dropped.
-/

namespace BucketMigration.Text

/-- Three digits after the point, without trailing zeros; a fraction of zero is left out. -/
def thousandths (n : Nat) : String :=
  if n % 1000 = 0 then ""
  else if n % 100 = 0 then s!".{n / 100}"
  else if n % 10 = 0 then "." ++ padZeros 2 (toString (n / 10))
  else "." ++ padZeros 3 (toString n)

def duration (ms : Nat) : String :=
  if ms = 0 then "0ns"
  else if ms < 1000 then s!"{ms}ms"
  else s!"{ms / 1000}{thousandths (ms % 1000)}s"

end BucketMigration.Text
