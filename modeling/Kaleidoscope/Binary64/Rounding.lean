import Kaleidoscope.Binary64.Basic

/-!
# Rounding quotients

## Nearest binary64 numbers

The quotient of two natural numbers is measured in units of `2 ^ (-1074)`.
Enough low bits are dropped to leave a significand of 53 bits, and the
significand is rounded to the nearest whole number, a half going to the even
neighbour.  A quotient too large for any finite number rounds to infinity.
-/

namespace Kaleidoscope
namespace Binary64

/-- The whole number nearest to `a / b`; a half goes to the even neighbour. -/
def divideToEven (a b : Nat) : Nat :=
  if 2 * (a % b) < b then
    a / b
  else if b < 2 * (a % b) then
    a / b + 1
  else
    a / b + a / b % 2

def droppedBits (a b : Nat) : Nat :=
  (a * one / b).log2 - 52

def nearestMagnitude (a b : Nat) : Nat :=
  let dropped := droppedBits a b
  min infiniteMagnitude
    (dropped * exponentWeight + divideToEven (a * one) (b * Nat.pow 2 dropped))

/-- The non-negative number nearest to `a / b`. -/
def nearest (a b : Nat) : Binary64 :=
  ofMagnitude (nearestMagnitude a b)

end Binary64
end Kaleidoscope
