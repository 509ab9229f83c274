/-!
# Rounding to a fixed number of places

Quotients rounded to the nearest natural number, a half going to the even neighbour, and the exact
value of a binary floating-point number written with one decimal place by that rule.
-/

namespace BucketMigration.Decimal

/-- The natural number nearest to `a / b`; of two equally near ones the even one. -/
def roundDiv (a b : Nat) : Nat :=
  let q := a / b
  let r := a % b
  if 2 * r < b then q
  else if b < 2 * r then q + 1
  else if q % 2 = 0 then q else q + 1

theorem roundDiv_near (a : Nat) {b : Nat} (hb : 0 < b) :
    2 * (roundDiv a b * b) ≤ 2 * a + b ∧ 2 * a ≤ 2 * (roundDiv a b * b) + b := by
  have h := Nat.div_add_mod a b
  have hm := Nat.mod_lt a hb
  have hq : b * (a / b) = a / b * b := Nat.mul_comm ..
  have hs : (a / b + 1) * b = a / b * b + b := Nat.succ_mul ..
  simp only [roundDiv]
  split
  · omega
  split
  · omega
  split <;> omega

/-- A non-negative number `mantissa * 2 ^ exponent`. -/
structure Binary where
  mantissa : Nat
  exponent : Int
deriving DecidableEq, Repr

/-- The magnitude of a finite floating-point number, read off its bits. -/
def Binary.ofFloat (x : Float) : Binary :=
  let bits : Nat := x.toBits.toNat
  let biased : Nat := bits / Nat.pow 2 52 % Nat.pow 2 11
  let fraction : Nat := bits % Nat.pow 2 52
  if biased = 0 then ⟨fraction, -1074⟩ else ⟨Nat.pow 2 52 + fraction, (biased : Int) - 1075⟩

def Binary.units (x : Binary) (scale : Nat) : Nat :=
  match x.exponent with
  | .ofNat e => x.mantissa * Nat.pow 2 e * scale
  | .negSucc e => roundDiv (x.mantissa * scale) (Nat.pow 2 (e + 1))

/-- A non-negative finite number with one decimal place. -/
def oneDecimal (x : Float) : String :=
  let tenths := (Binary.ofFloat x).units 10
  s!"{tenths / 10}.{tenths % 10}"

end BucketMigration.Decimal
