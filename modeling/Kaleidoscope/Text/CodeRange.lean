/-!
# Ranges of code points

## Tables of character properties

A property is given by the inclusive ranges of code points that have it, in
ascending order.
-/

namespace Kaleidoscope
namespace Text

def inRanges (n : Nat) : List (Nat × Nat) -> Bool
  | [] => false
  | (first, last) :: rest =>
      if n < first then
        false
      else
        decide (n ≤ last) || inRanges n rest

end Text
end Kaleidoscope
