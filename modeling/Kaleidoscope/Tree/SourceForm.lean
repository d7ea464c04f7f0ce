import Kaleidoscope.Decimal.Layout
import Kaleidoscope.Tree.Basic

/-!
# Source forms

## Trees written as they are read

The source form of a unit reads back as the same unit.  Every binary operation
stands in parentheses, so that no precedence is needed to read it, and an
infinite number is written as a numeral too large for any finite one.
-/

namespace Kaleidoscope

/-- Ten to the power 309 in full: the shortest power of ten past every finite number. -/
def infiniteNumeral : String :=
  String.ofList ('1' :: List.replicate 309 '0')

def Binary64.sourceForm (x : Binary64) : String :=
  if x.isInfinite then
    infiniteNumeral
  else
    x.text .plain

mutual

def Expr.sourceForm : Expr -> String
  | .number value => value.sourceForm
  | .var name => name
  | .binary op left right =>
      "(" ++ left.sourceForm ++ " " ++ String.singleton op ++ " " ++ right.sourceForm ++ ")"
  | .call callee arguments => callee ++ "(" ++ Expr.argumentForms arguments ++ ")"

def Expr.argumentForms : List Expr -> String
  | [] => ""
  | [argument] => argument.sourceForm
  | argument :: next :: rest =>
      argument.sourceForm ++ ", " ++ Expr.argumentForms (next :: rest)

end

def Prototype.sourceForm (prototype : Prototype) : String :=
  prototype.name ++ "(" ++ " ".intercalate prototype.parameters ++ ")"

def Definition.sourceForm (content : Definition) : String :=
  if content.prototype.isAnonymous then
    content.body.sourceForm
  else
    "def " ++ content.prototype.sourceForm ++ " " ++ content.body.sourceForm

def TopLevel.sourceForm : TopLevel -> String
  | .definition content => content.sourceForm
  | .external prototype => "extern " ++ prototype.sourceForm
  | .expression content => content.sourceForm

/-- The source forms of units with a semicolon and a new line between each two. -/
def joined (units : List TopLevel) : String :=
  ";\n".intercalate (units.map TopLevel.sourceForm)

end Kaleidoscope
