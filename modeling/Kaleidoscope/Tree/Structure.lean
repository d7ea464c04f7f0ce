import Kaleidoscope.Decimal.Layout
import Kaleidoscope.Outline
import Kaleidoscope.Text.Quoted
import Kaleidoscope.Tree.Basic

/-!
# Outlines of trees

## Every node by name

The outline of a tree names each node and each part of it.  Names are quoted
texts, operators quoted characters, and whole numbers keep a fraction digit.
-/

namespace Kaleidoscope

def quotedLeaf (text : String) : Outline :=
  .leaf (Text.quoteString text)

mutual

def Expr.outline : Expr -> Outline
  | .number value => .tuple "Number" [.leaf (value.text .marked)]
  | .var name => .tuple "Variable" [quotedLeaf name]
  | .binary op left right =>
      .record "Binary"
        [.labelled "op" (.leaf (Text.quoteChar op)),
         .labelled "left" left.outline,
         .labelled "right" right.outline]
  | .call callee arguments =>
      .record "Call"
        [.labelled "callee" (quotedLeaf callee),
         .labelled "args" (.list (Expr.outlines arguments))]

def Expr.outlines : List Expr -> List Outline
  | [] => []
  | argument :: rest => argument.outline :: Expr.outlines rest

end

def Prototype.outline (prototype : Prototype) : Outline :=
  .record "Prototype"
    [.labelled "name" (quotedLeaf prototype.name),
     .labelled "params" (.list (prototype.parameters.map quotedLeaf))]

def Definition.outline (content : Definition) : Outline :=
  .record "Function"
    [.labelled "prototype" content.prototype.outline,
     .labelled "body" content.body.outline]

def TopLevel.outline : TopLevel -> Outline
  | .definition content => .tuple "Definition" [content.outline]
  | .external prototype => .tuple "Extern" [prototype.outline]
  | .expression content => .tuple "Expression" [content.outline]

end Kaleidoscope
