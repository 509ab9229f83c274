/-!
# Words

Sizes, offsets and counts are natural numbers that a service keeps in 64 bits, and part numbers
are positive 31-bit numbers. This module holds the arithmetic that respects those limits: checked
addition, which has no answer past the limit, and saturating multiplication, which stops at it.
-/

namespace BucketMigration

def wordCount : Nat := Nat.pow 2 64

def maxWord : Nat := Nat.pow 2 64 - 1

def maxPartNumber : Nat := Nat.pow 2 31 - 1

namespace Word

/-- Addition of words, without an answer when the sum is no word. -/
def add? (a b : Nat) : Option Nat :=
  if a + b ≤ maxWord then some (a + b) else none

def nextPart? (n : Nat) : Option Nat :=
  if n + 1 ≤ maxPartNumber then some (n + 1) else none

/-- Multiplication of words that stops at the largest word. -/
def mulSat (a b : Nat) : Nat :=
  min (a * b) maxWord

/-- How many pieces of `b` cover `a`. -/
def ceilDiv (a b : Nat) : Nat :=
  (a + b - 1) / b

theorem add?_eq_some_iff {a b c : Nat} : add? a b = some c ↔ a + b = c ∧ c ≤ maxWord := by
  unfold add?
  split <;> simp <;> omega

theorem nextPart?_eq_some_iff {n m : Nat} :
    nextPart? n = some m ↔ n + 1 = m ∧ m ≤ maxPartNumber := by
  unfold nextPart?
  split <;> simp <;> omega

theorem le_ceilDiv_mul (a : Nat) {b : Nat} (hb : 0 < b) : a ≤ ceilDiv a b * b := by
  have h := Nat.div_add_mod (a + b - 1) b
  have hm := Nat.mod_lt (a + b - 1) hb
  have hc : b * ((a + b - 1) / b) = ceilDiv a b * b := Nat.mul_comm ..
  omega

end Word

end BucketMigration
