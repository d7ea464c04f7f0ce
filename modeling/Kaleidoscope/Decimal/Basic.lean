import Kaleidoscope.Binary64.Rounding

/-!
# Decimals

## Significands and powers of ten

A decimal is a natural number times a power of ten.  Its quotient form serves
to round it to a binary64 number.
-/

namespace Kaleidoscope

structure Decimal where
  significand : Nat
  exponent : Int
deriving DecidableEq

namespace Decimal

def numerator (d : Decimal) : Nat :=
  d.significand * Nat.pow 10 d.exponent.toNat

def denominator (d : Decimal) : Nat :=
  Nat.pow 10 (-d.exponent).toNat

def magnitude (d : Decimal) : Nat :=
  Binary64.nearestMagnitude d.numerator d.denominator

def digits (d : Decimal) : List Char :=
  Nat.toDigits 10 d.significand

/-- The number of digits before the decimal point; negative if zeros follow it. -/
def pointPlace (d : Decimal) : Int :=
  d.digits.length + d.exponent

end Decimal
end Kaleidoscope
