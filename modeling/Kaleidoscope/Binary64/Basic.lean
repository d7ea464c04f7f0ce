/-!
# Binary64 numbers

## Words, magnitudes and exact values

A number is kept as its 64-bit word.  The word without its sign bit is the
magnitude.  Read as a natural number the magnitude grows with the absolute
value, from zero through the subnormal and normal numbers to infinity, and
every magnitude past infinity is not a number.

The exact absolute value of a finite number is a whole number of units of
`2 ^ (-1074)`, the least positive number.
-/

namespace Kaleidoscope

structure Binary64 where
  bits : UInt64
deriving DecidableEq

namespace Binary64

def signWeight : Nat :=
  Nat.pow 2 63

def exponentWeight : Nat :=
  Nat.pow 2 52

/-- The word of a non-negative number with the given magnitude. -/
def ofMagnitude (m : Nat) : Binary64 :=
  ⟨UInt64.ofNat m⟩

def magnitude (x : Binary64) : Nat :=
  x.bits.toNat % signWeight

def isNegative (x : Binary64) : Bool :=
  decide (signWeight ≤ x.bits.toNat)

def infiniteMagnitude : Nat :=
  2047 * exponentWeight

def isNaN (x : Binary64) : Bool :=
  decide (infiniteMagnitude < x.magnitude)

def isInfinite (x : Binary64) : Bool :=
  decide (x.magnitude = infiniteMagnitude)

def isZero (x : Binary64) : Bool :=
  decide (x.magnitude = 0)

def zero : Binary64 :=
  ofMagnitude 0

def infinity : Binary64 :=
  ofMagnitude infiniteMagnitude

/-- Equality of values: the two zeros are equal, and a NaN equals nothing. -/
def sameValue (x y : Binary64) : Bool :=
  !x.isNaN && !y.isNaN && (x == y || x.isZero && y.isZero)

/-!
# Exact values

A magnitude without exponent bits is its own number of units.  Above that the
exponent counts the doublings of a significand of 53 bits.
-/

/-- The number of units of `2 ^ (-1074)` in a finite magnitude. -/
def unitsOf (m : Nat) : Nat :=
  if m < exponentWeight then
    m
  else
    (exponentWeight + m % exponentWeight) * Nat.pow 2 (m / exponentWeight - 1)

def one : Nat :=
  Nat.pow 2 1074

end Binary64
end Kaleidoscope
