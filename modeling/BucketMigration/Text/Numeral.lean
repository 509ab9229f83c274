/-!
# Numerals

Reading and writing natural numbers in decimal and hexadecimal digits.
-/

namespace BucketMigration.Text

def decimalValue (cs : List Char) : Nat :=
  cs.foldl (fun n c => 10 * n + (c.toNat - '0'.toNat)) 0

def dropPlus : List Char → List Char
  | '+' :: rest => rest
  | cs => cs

/-- The value of a non-empty run of decimal digits, if it is below `bound`. -/
def digits? (bound : Nat) (cs : List Char) : Option Nat :=
  if cs ≠ [] ∧ cs.all Char.isDigit ∧ decimalValue cs < bound then some (decimalValue cs) else none

/-- The value of a decimal numeral below `bound`: digits, with one optional plus sign before
them. Leading zeros are accepted. -/
def unsigned? (bound : Nat) (cs : List Char) : Option Nat :=
  digits? bound (dropPlus cs)

theorem digits?_eq_some_iff {bound n : Nat} {cs : List Char} :
    digits? bound cs = some n ↔
      cs ≠ [] ∧ cs.all Char.isDigit ∧ decimalValue cs = n ∧ n < bound := by
  unfold digits?
  split
  case isTrue h =>
    constructor
    · intro e
      cases e
      exact ⟨h.1, h.2.1, rfl, h.2.2⟩
    · intro e
      rw [e.2.2.1]
  case isFalse h =>
    constructor
    · intro e
      cases e
    · intro e
      exact absurd ⟨e.1, e.2.1, e.2.2.1 ▸ e.2.2.2⟩ h

/-- The hexadecimal digits of a number, in lower case. -/
def hex (n : Nat) : String :=
  String.ofList (Nat.toDigits 16 n)

/-- A text filled up with leading zeros to `width` characters. -/
def padZeros (width : Nat) (s : String) : String :=
  String.ofList (List.replicate (width - s.length) '0') ++ s

/-- The hexadecimal digits of a number, at least `width` of them. -/
def hexPadded (width n : Nat) : String :=
  padZeros width (hex n)

/-- The value of a hexadecimal digit of either case. -/
def hexDigit? (c : Char) : Option Nat :=
  if c.isDigit then some (c.toNat - '0'.toNat)
  else if 'a' ≤ c ∧ c ≤ 'f' then some (c.toNat - 'a'.toNat + 10)
  else if 'A' ≤ c ∧ c ≤ 'F' then some (c.toNat - 'A'.toNat + 10)
  else none

end BucketMigration.Text
