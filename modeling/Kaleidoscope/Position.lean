/-!
# Positions and spans

## Offsets in a named file

An offset counts characters from the start of a file.  Offsets are 32-bit
words: counting stops at the largest of them.
-/

namespace Kaleidoscope

structure Position where
  offset : Nat
  file : String
deriving DecidableEq

namespace Position

def maxOffset : Nat :=
  Nat.pow 2 32 - 1

/-- A count of characters as far as an offset can tell it. -/
def clamp (count : Nat) : Nat :=
  min count maxOffset

end Position

structure Span where
  start : Position
  stop : Position
deriving DecidableEq

end Kaleidoscope
