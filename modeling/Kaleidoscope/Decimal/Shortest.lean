import Kaleidoscope.Decimal.Basic

/-!
# Shortest decimals

## The fewest digits that read back

A finite positive number is written with the fewest digits whose decimal is
nearest to no other number.  For each digit count from one to seventeen the two
neighbours of the number on that decimal grid are tried: the first count with a
neighbour that reads back wins, and of two such neighbours the nearer one, the
upper one if both are equally near.
-/

namespace Kaleidoscope
namespace Decimal

def trimWithin : Nat -> Decimal -> Decimal
  | 0, d => d
  | steps + 1, d =>
      if d.significand % 10 = 0 then
        trimWithin steps ⟨d.significand / 10, d.exponent + 1⟩
      else
        d

def leadingPlace (m : Nat) : Int :=
  (Nat.toDigits 10 (Binary64.unitsOf m * Nat.pow 10 324 / Binary64.one)).length - 325

def scaled (m : Nat) (place : Int) : Nat × Nat :=
  (Binary64.unitsOf m * Nat.pow 10 (-place).toNat, Binary64.one * Nat.pow 10 place.toNat)

/-- The nearer neighbour with one digit more than `places` that reads back. -/
def neighbour? (m places : Nat) : Option Decimal :=
  let place := leadingPlace m - places
  let quotient := scaled m place
  let lower : Decimal := ⟨quotient.1 / quotient.2, place⟩
  let upper : Decimal := ⟨quotient.1 / quotient.2 + 1, place⟩
  let lowerReads := lower.magnitude = m
  let upperReads := upper.magnitude = m
  if lowerReads ∧ (2 * (quotient.1 % quotient.2) < quotient.2 ∨ ¬ upperReads) then
    some lower
  else if upperReads then
    some upper
  else
    none

def exact (m : Nat) : Decimal :=
  ⟨Binary64.unitsOf m * Nat.pow 5 1074, -1074⟩

/-- The shortest decimal that reads back as a positive finite magnitude. -/
def shortest (m : Nat) : Decimal :=
  let found := ((List.range 17).findSome? (neighbour? m)).getD (exact m)
  trimWithin found.digits.length found

end Decimal
end Kaleidoscope
