import Kaleidoscope.Parser.Reply
import Kaleidoscope.Tree.Basic

/-!
# Parsing expressions

## Operands, operations and calls

An expression is an operand followed by operations.  An operand is a number, a
variable, a call, or an expression in parentheses.  Operations are folded by
precedence: equal precedence associates to the left, and an operator that binds
tighter than the one before it is absorbed into the right operand of that one.

Every construct takes the depth it may still use.  A grouping, a call, and a
reference skip the lookahead unseen, since their callers have inspected it.
-/

namespace Kaleidoscope
namespace Parser

mutual

def expressionWithin : Nat -> Parser -> Reply Expr
  | 0, _ => .tooDeep
  | depth + 1, parser =>
      (primaryWithin depth parser).andThen fun left rest =>
        operationsWithin 0 left depth rest

def primaryWithin : Nat -> Parser -> Reply Expr
  | 0, _ => .tooDeep
  | depth + 1, parser =>
      match parser.current.kind with
      | .identifier name => referenceWithin name depth parser
      | .number value => .parsed (.number value) parser.advance
      | .character '(' => groupingWithin depth parser
      | _ => parser.fail .unknownToken

def groupingWithin : Nat -> Parser -> Reply Expr
  | 0, _ => .tooDeep
  | depth + 1, parser =>
      (expressionWithin depth parser.advance).andThen fun content rest =>
        (rest.expect ')' .expectedCloseParen).map fun _ => content

/-- A variable, or a call if an opening parenthesis follows the name. -/
def referenceWithin (name : String) : Nat -> Parser -> Reply Expr
  | 0, _ => .tooDeep
  | depth + 1, parser =>
      let afterName := parser.advance
      if afterName.atCharacter '(' then
        let inside := afterName.advance
        if inside.atCharacter ')' then
          .parsed (.call name []) inside.advance
        else
          (argumentsWithin depth inside).andThen fun arguments rest =>
            .parsed (.call name arguments) rest.advance
      else
        .parsed (.var name) afterName

/-- The arguments of a call up to its closing parenthesis, that one excluded. -/
def argumentsWithin : Nat -> Parser -> Reply (List Expr)
  | 0, _ => .tooDeep
  | depth + 1, parser =>
      (expressionWithin depth parser).andThen fun argument rest =>
        if rest.atCharacter ')' then
          .parsed [argument] rest
        else
          (rest.expect ',' .expectedArgumentDelimiter).andThen fun _ rest =>
            (argumentsWithin depth rest).map fun others => argument :: others

/-- Folds the operations of at least the given precedence into the left operand. -/
def operationsWithin (least : Int32) (left : Expr) : Nat -> Parser -> Reply Expr
  | 0, _ => .tooDeep
  | depth + 1, parser =>
      if parser.precedence < least then
        .parsed left parser
      else
        match parser.current.kind with
        | .character op =>
            (primaryWithin depth parser.advance).andThen fun right rest =>
              if parser.precedence < rest.precedence then
                (operationsWithin (parser.precedence + 1) right depth rest).andThen
                  fun right rest =>
                    operationsWithin least (.binary op left right) depth rest
              else
                operationsWithin least (.binary op left right) depth rest
        | _ => .parsed left parser.advance

end

/-!
# Expressions of any depth
-/

def expression (parser : Parser) : Except SyntaxError Expr × Parser :=
  parser.settled expressionWithin

def primary (parser : Parser) : Except SyntaxError Expr × Parser :=
  parser.settled primaryWithin

def grouping (parser : Parser) : Except SyntaxError Expr × Parser :=
  parser.settled groupingWithin

def reference (parser : Parser) (name : String) : Except SyntaxError Expr × Parser :=
  parser.settled (referenceWithin name)

def operations (parser : Parser) (least : Int32) (left : Expr) :
    Except SyntaxError Expr × Parser :=
  parser.settled (operationsWithin least left)

end Parser
end Kaleidoscope
