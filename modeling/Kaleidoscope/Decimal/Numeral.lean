import Kaleidoscope.Binary64.Rounding

/-!
# Numerals

## The longest leading numeral of a text

A numeral is a run of digits, optionally with a point and more digits, or a
point followed by digits.  Whatever follows the longest leading numeral is
ignored, and a text that begins with none is worth zero.
-/

namespace Kaleidoscope
namespace Numeral

def ofDigits (digits : List Char) : Nat :=
  digits.foldl (fun n c => 10 * n + (c.toNat - '0'.toNat)) 0

def whole (text : List Char) : List Char :=
  text.takeWhile Char.isDigit

/-- The digits after the point that directly follows the whole part. -/
def fraction (text : List Char) : List Char :=
  match text.dropWhile Char.isDigit with
  | '.' :: rest => rest.takeWhile Char.isDigit
  | _ => []

/-- The binary64 number nearest to the longest leading numeral. -/
def value (text : List Char) : Binary64 :=
  Binary64.nearest (ofDigits (whole text ++ fraction text))
    (Nat.pow 10 (fraction text).length)

end Numeral
end Kaleidoscope
