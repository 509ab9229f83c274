import BucketMigration.Json.Syntax
import BucketMigration.Text.Numeral

/-!
# The value of a numeral

Integers are exact. A floating-point value is found in one scaling step: the leading digits are
gathered into a 64-bit word for as long as they fit, and the word is multiplied or divided by a
power of ten. This is not always the nearest floating-point number, but always the same one.
-/

namespace BucketMigration.Numeral

open Text (decimalValue)

def isInteger (n : Numeral) : Bool :=
  n.fraction.isNone && n.exponent.isNone

/-- The integer that a numeral writes. A zero with a minus sign is no integer. -/
def int? (n : Numeral) : Option Int :=
  if n.isInteger then
    let magnitude := decimalValue n.whole
    if n.negative then (if magnitude = 0 then none else some (-(magnitude : Int)))
    else some magnitude
  else none

/-- Digits gathered so far, the power of ten that they are to be scaled by, and whether a digit
had to be left out. -/
structure Scaled where
  digits : Nat := 0
  exponent : Int := 0
  full : Bool := false
deriving DecidableEq, Repr

namespace Scaled

/-- The word with one more digit, if it stays a word. -/
def push? (s : Scaled) (c : Char) : Option Nat :=
  let next := s.digits * 10 + (c.toNat - '0'.toNat)
  if next < Nat.pow 2 64 then some next else none

/-- A digit before the point. One that does not fit makes the power larger, and so do all that
follow it. -/
def whole (s : Scaled) (c : Char) : Scaled :=
  if s.full then { s with exponent := s.exponent + 1 }
  else match s.push? c with
    | some digits => { s with digits }
    | none => { s with exponent := s.exponent + 1, full := true }

/-- A digit after the point. One that does not fit is dropped with all that follow it. -/
def fraction (s : Scaled) (c : Char) : Scaled :=
  if s.full then s
  else match s.push? c with
    | some digits => { s with digits, exponent := s.exponent - 1 }
    | none => { s with full := true }

end Scaled

def scaled (n : Numeral) : Scaled :=
  let whole := n.whole.foldl Scaled.whole {}
  (n.fraction.getD []).foldl Scaled.fraction { whole with full := false }

def powerOfTen (n : Nat) : Float :=
  Float.ofScientific 1 false n

/-- Scaling by a power of ten in steps of at most 308 decimal places. A value beyond the largest
number has no floating-point form. -/
def scale? : Nat → Float → Int → Option Float
  | 0, x, _ => some x
  | budget + 1, x, exponent =>
      if exponent.natAbs ≤ 308 then
        if 0 ≤ exponent then
          let y := x * powerOfTen exponent.natAbs
          if y.isInf then none else some y
        else some (x / powerOfTen exponent.natAbs)
      else if x == 0.0 then some x
      else if 0 ≤ exponent then none
      else scale? budget (x / powerOfTen 308) (exponent + 308)

/-- The magnitude as a floating-point number. An exponent that is no 32-bit number is taken for an
unbounded one. -/
def magnitude? (n : Numeral) : Option Float :=
  let s := n.scaled
  let (negative, digits) := n.exponent.getD (false, [])
  let e := decimalValue digits
  if Nat.pow 2 31 ≤ e then (if s.digits ≠ 0 ∧ !negative then none else some 0.0)
  else
    let shift : Int := if negative then -(e : Int) else e
    let exponent := max (-Int.pow 2 31) (min (s.exponent + shift) (Int.pow 2 31 - 1))
    scale? (exponent.natAbs / 308 + 2) (UInt64.ofNat s.digits).toFloat exponent

def float? (n : Numeral) : Option Float :=
  match n.int? with
  | some i =>
      if 0 ≤ i ∧ i < Int.pow 2 64 then some (UInt64.ofNat i.toNat).toFloat
      else if -Int.pow 2 63 ≤ i ∧ i < 0 then some (-(UInt64.ofNat i.natAbs).toFloat)
      else n.magnitude?.map fun x => if n.negative then -x else x
  | none => n.magnitude?.map fun x => if n.negative then -x else x

end BucketMigration.Numeral
