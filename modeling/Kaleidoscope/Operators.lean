import Kaleidoscope.Token

/-!
# Operator tables

## Precedences

A table gives binary operators their precedences; the higher one binds tighter.
Only an ASCII character with a positive precedence is an operator.  Installing a
precedence overrides the one before it, so a precedence of zero or below makes
an ordinary character of an operator again.
-/

namespace Kaleidoscope

/-- The installed precedences, the latest first. -/
structure Operators where
  entries : List (Char × Int32)
deriving DecidableEq

namespace Operators

def notAnOperator : Int32 :=
  -1

def empty : Operators :=
  ⟨[]⟩

def install (operators : Operators) (op : Char) (precedence : Int32) : Operators :=
  ⟨(op, precedence) :: operators.entries⟩

def standard : Operators :=
  (((empty.install '<' 10).install '+' 20).install '-' 20).install '*' 40

def isAscii (c : Char) : Bool :=
  decide (c.toNat < 128)

def precedence? (operators : Operators) (c : Char) : Option Int32 :=
  if isAscii c then
    (operators.entries.lookup c).filter fun precedence => decide (0 < precedence)
  else
    none

def precedence (operators : Operators) (kind : Token.Kind) : Int32 :=
  match kind with
  | .character c => (operators.precedence? c).getD notAnOperator
  | _ => notAnOperator

end Operators
end Kaleidoscope
