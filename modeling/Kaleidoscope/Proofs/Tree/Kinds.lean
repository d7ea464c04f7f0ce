import Kaleidoscope.Proofs.Decimal.ReadBack
import Kaleidoscope.Proofs.Scanner.Spelling
import Kaleidoscope.Proofs.Tree.Writable

/-!
# Kinds of trees

The source form of a tree that can be written spells a list of token kinds, and
the grammar derives the tree from that list.  Parentheses stand around every
operation, so the derivation is the same whatever the precedences are.
-/

namespace Kaleidoscope

mutual

def Expr.kinds : Expr -> List Token.Kind
  | .number value => [.number value]
  | .var name => [.identifier name]
  | .binary op left right =>
      .character '(' ::
        ((left.kinds ++ .character op :: right.kinds) ++ [.character ')'])
  | .call callee arguments =>
      .identifier callee :: .character '(' ::
        (Expr.argumentKinds arguments ++ [.character ')'])

def Expr.argumentKinds : List Expr -> List Token.Kind
  | [] => []
  | [argument] => argument.kinds
  | argument :: next :: rest =>
      argument.kinds ++ .character ',' :: Expr.argumentKinds (next :: rest)

end

def Prototype.kinds (prototype : Prototype) : List Token.Kind :=
  .identifier prototype.name :: .character '(' ::
    (prototype.parameters.map .identifier ++ [.character ')'])

def TopLevel.kinds : TopLevel -> List Token.Kind
  | .definition content => .define :: (content.prototype.kinds ++ content.body.kinds)
  | .external prototype => .external :: prototype.kinds
  | .expression content => content.body.kinds

/-!
# Derivations
-/

section

variable {operators : Operators}

theorem derives_expression {kinds : List Token.Kind} {value : Expr}
    (h : Derives operators kinds (.primary value)) :
    Derives operators kinds (.expression value) := by
  have hexpression := Derives.expression h Derives.noOperation
  rw [List.append_nil, Operators.tree_nil] at hexpression
  exact hexpression

theorem derives_binary {left right : List Token.Kind} {op : Char} {x y : Expr}
    (hop : operators.IsOperator (.character op))
    (hleft : Derives operators left (.primary x))
    (hright : Derives operators right (.primary y)) :
    Derives operators (left ++ .character op :: right)
      (.expression (.binary op x y)) := by
  have hoperation := Derives.operation hop hright Derives.noOperation
  have hexpression := Derives.expression hleft hoperation
  have htree := operators.tree_absorb x (op, y) [] []
    (fun operation hmem => absurd hmem List.not_mem_nil)
    (fun operation hhead => nomatch hhead)
  simp only [List.append_nil, Operators.tree_nil] at hexpression htree
  rw [htree] at hexpression
  exact hexpression

mutual

theorem Expr.derives_kinds : (value : Expr) -> value.Writable operators ->
    Derives operators value.kinds (.primary value)
  | .number value, _ => Derives.number value
  | .var name, _ => Derives.var name
  | .binary op left right, h => by
      rcases h with ⟨hop, _, hleft, hright⟩
      unfold Expr.kinds
      exact Derives.grouping
        (derives_binary hop (left.derives_kinds hleft) (right.derives_kinds hright))
  | .call callee [], _ => Derives.emptyCall callee
  | .call callee (argument :: rest), h => by
      unfold Expr.kinds
      exact Derives.call callee
        (Expr.derives_argumentKinds (argument :: rest) (List.cons_ne_nil _ _) h.right)

theorem Expr.derives_argumentKinds : (arguments : List Expr) -> arguments ≠ [] ->
    Expr.AllWritable operators arguments ->
    Derives operators (Expr.argumentKinds arguments) (.arguments arguments)
  | [], hne, _ => absurd rfl hne
  | [argument], _, h => by
      unfold Expr.argumentKinds
      exact Derives.lastArgument (derives_expression (argument.derives_kinds h.left))
  | argument :: next :: rest, _, h => by
      unfold Expr.argumentKinds
      exact Derives.nextArgument (derives_expression (argument.derives_kinds h.left))
        (Expr.derives_argumentKinds (next :: rest) (List.cons_ne_nil _ _) h.right)

end

end

theorem derives_parameters (operators : Operators) (names : List String) :
    Derives operators (names.map .identifier) (.parameters names) := by
  induction names with
  | nil => exact Derives.noParameter
  | cons name names ih => exact Derives.parameter name ih

theorem Prototype.derives_kinds (prototype : Prototype) :
    Derives .standard prototype.kinds (.prototype prototype) :=
  Derives.prototype prototype.name (derives_parameters _ prototype.parameters)

theorem TopLevel.derives_kinds (unit : TopLevel) (h : unit.Readable) :
    Derives .standard unit.kinds (.unit unit) := by
  cases unit with
  | definition content =>
      have hbody := content.body.writable_of_readable h.right
      exact Derives.definition content.prototype.derives_kinds
        (derives_expression (content.body.derives_kinds hbody))
  | external prototype => exact Derives.external prototype.derives_kinds
  | expression content =>
      rcases content with ⟨prototype, body⟩
      rcases h with ⟨hprototype, hbody⟩
      dsimp only at hprototype
      rw [hprototype]
      exact Derives.bare
        (derives_expression (body.derives_kinds (body.writable_of_readable hbody)))

end Kaleidoscope
