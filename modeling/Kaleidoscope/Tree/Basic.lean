import Kaleidoscope.Binary64.Basic

/-!
# Syntax trees

## Expressions and top-level units

A unit is a definition, the declaration of an external function, or a bare
expression.  A bare expression is the body of a definition whose prototype is
anonymous.
-/

namespace Kaleidoscope

inductive Expr where
  | number (value : Binary64)
  | var (name : String)
  | binary (op : Char) (left right : Expr)
  | call (callee : String) (arguments : List Expr)

structure Prototype where
  name : String
  parameters : List String
deriving DecidableEq

namespace Prototype

/-- The prototype of a bare expression. -/
def anonymous : Prototype :=
  ⟨"", []⟩

def isAnonymous (prototype : Prototype) : Bool :=
  prototype.name.isEmpty

end Prototype

/-!
# Identical trees

Two trees are identical if they have the same nodes with the same names and the
same words of numbers.
-/

mutual

def Expr.decEq : (x y : Expr) -> Decidable (x = y)
  | .number x, .number y => decidable_of_iff (x = y) (by simp)
  | .var x, .var y => decidable_of_iff (x = y) (by simp)
  | .binary op left right, .binary op' left' right' =>
      have := left.decEq left'
      have := right.decEq right'
      decidable_of_iff (op = op' ∧ left = left' ∧ right = right') (by simp)
  | .call callee arguments, .call callee' arguments' =>
      have := Expr.decEqList arguments arguments'
      decidable_of_iff (callee = callee' ∧ arguments = arguments') (by simp)
  | .number _, .var _ => isFalse nofun
  | .number _, .binary .. => isFalse nofun
  | .number _, .call .. => isFalse nofun
  | .var _, .number _ => isFalse nofun
  | .var _, .binary .. => isFalse nofun
  | .var _, .call .. => isFalse nofun
  | .binary .., .number _ => isFalse nofun
  | .binary .., .var _ => isFalse nofun
  | .binary .., .call .. => isFalse nofun
  | .call .., .number _ => isFalse nofun
  | .call .., .var _ => isFalse nofun
  | .call .., .binary .. => isFalse nofun

def Expr.decEqList : (xs ys : List Expr) -> Decidable (xs = ys)
  | [], [] => isTrue rfl
  | x :: xs, y :: ys =>
      have := x.decEq y
      have := Expr.decEqList xs ys
      decidable_of_iff (x = y ∧ xs = ys) (by simp)
  | [], _ :: _ => isFalse nofun
  | _ :: _, [] => isFalse nofun

end

instance : DecidableEq Expr :=
  Expr.decEq

structure Definition where
  prototype : Prototype
  body : Expr
deriving DecidableEq

inductive TopLevel where
  | definition (content : Definition)
  | external (prototype : Prototype)
  | expression (content : Definition)
deriving DecidableEq

/-!
# Equal values

Trees are compared by the values of their numbers, so a tree with a NaN in it
differs from itself and the two zeros do not differ.
-/

mutual

def Expr.sameValue : Expr -> Expr -> Bool
  | .number x, .number y => x.sameValue y
  | .var x, .var y => x == y
  | .binary op left right, .binary op' left' right' =>
      op == op' && left.sameValue left' && right.sameValue right'
  | .call callee arguments, .call callee' arguments' =>
      callee == callee' && Expr.sameValues arguments arguments'
  | _, _ => false

def Expr.sameValues : List Expr -> List Expr -> Bool
  | [], [] => true
  | x :: xs, y :: ys => x.sameValue y && Expr.sameValues xs ys
  | _, _ => false

end

def Definition.sameValue (x y : Definition) : Bool :=
  x.prototype == y.prototype && x.body.sameValue y.body

namespace TopLevel

def prototype : TopLevel -> Prototype
  | .definition content => content.prototype
  | .external prototype => prototype
  | .expression content => content.prototype

def sameValue : TopLevel -> TopLevel -> Bool
  | .definition x, .definition y => x.sameValue y
  | .external x, .external y => x == y
  | .expression x, .expression y => x.sameValue y
  | _, _ => false

def sameValues : List TopLevel -> List TopLevel -> Bool
  | [], [] => true
  | x :: xs, y :: ys => x.sameValue y && sameValues xs ys
  | _, _ => false

end TopLevel
end Kaleidoscope
