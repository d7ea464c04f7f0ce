import Kaleidoscope.Decimal.Shortest

/-!
# Number texts

## Positional and exponent notation

A layout says which numbers are written positionally and what marks a number
without fraction digits.  The digits are the shortest ones in every layout.
-/

namespace Kaleidoscope
namespace Decimal

structure Layout where
  positional : Int -> Bool
  wholeMark : String

namespace Layout

def plain : Layout where
  positional := fun _ => true
  wholeMark := ""

/-- Positional from `0.0001` up to below `10 ^ 16`, with one fraction digit at least. -/
def marked : Layout where
  positional := fun place => decide (-4 ≤ place) && decide (place < 16)
  wholeMark := ".0"

end Layout

def zeros (count : Nat) : List Char :=
  List.replicate count '0'

def positionalText (layout : Layout) (d : Decimal) : String :=
  let digits := d.digits
  let point := d.pointPlace
  if point ≤ 0 then
    "0." ++ String.ofList (zeros (-point).toNat ++ digits)
  else if point < digits.length then
    String.ofList (digits.take point.toNat) ++ "." ++
      String.ofList (digits.drop point.toNat)
  else
    String.ofList (digits ++ zeros (point.toNat - digits.length)) ++ layout.wholeMark

def exponentText (d : Decimal) : String :=
  let digits := d.digits
  let fraction := digits.drop 1
  String.ofList (digits.take 1) ++
    (if fraction.isEmpty then "" else "." ++ String.ofList fraction) ++
    "e" ++ toString (d.pointPlace - 1)

def text (layout : Layout) (d : Decimal) : String :=
  if layout.positional (d.pointPlace - 1) then
    d.positionalText layout
  else
    d.exponentText

end Decimal

namespace Binary64

def text (layout : Decimal.Layout) (x : Binary64) : String :=
  if x.isNaN then
    "NaN"
  else
    (if x.isNegative then "-" else "") ++
      (if x.isInfinite then
        "inf"
      else if x.isZero then
        "0" ++ layout.wholeMark
      else
        (Decimal.shortest x.magnitude).text layout)

end Binary64
end Kaleidoscope
