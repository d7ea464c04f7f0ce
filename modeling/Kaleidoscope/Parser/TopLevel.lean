import Kaleidoscope.Parser.Expression

/-!
# Parsing top-level units

## Prototypes, definitions, external declarations, bare expressions

The lookahead decides which unit is parsed: a keyword begins a definition or an
external declaration, anything else a bare expression.  A definition and an
external declaration skip the lookahead unseen.
-/

namespace Kaleidoscope
namespace Parser

def parametersWithin : Nat -> Parser -> Reply (List String)
  | 0, _ => .tooDeep
  | depth + 1, parser =>
      match parser.current.kind with
      | .identifier name =>
          (parametersWithin depth parser.advance).map fun others => name :: others
      | _ => .parsed [] parser

def prototypeWithin (depth : Nat) (parser : Parser) : Reply Prototype :=
  match parser.current.kind with
  | .identifier name =>
      let afterName := parser.advance
      if afterName.atCharacter '(' then
        (parametersWithin depth afterName.advance).andThen fun parameters rest =>
          (rest.expect ')' .expectedPrototypeCloseParen).map fun _ => ⟨name, parameters⟩
      else
        afterName.fail .expectedPrototypeOpenParen
  | _ => parser.fail .expectedFunctionName

def definitionWithin (depth : Nat) (parser : Parser) : Reply Definition :=
  (prototypeWithin depth parser.advance).andThen fun prototype rest =>
    (expressionWithin depth rest).map fun body => ⟨prototype, body⟩

def externalWithin (depth : Nat) (parser : Parser) : Reply Prototype :=
  prototypeWithin depth parser.advance

def bareExpressionWithin (depth : Nat) (parser : Parser) : Reply Definition :=
  (expressionWithin depth parser).map fun body => ⟨.anonymous, body⟩

def topLevelWithin (depth : Nat) (parser : Parser) : Reply TopLevel :=
  match parser.current.kind with
  | .define => (definitionWithin depth parser).map .definition
  | .external => (externalWithin depth parser).map .external
  | _ => (bareExpressionWithin depth parser).map .expression

/-!
# Units of any depth
-/

def prototype (parser : Parser) : Except SyntaxError Prototype × Parser :=
  parser.settled prototypeWithin

def definition (parser : Parser) : Except SyntaxError Definition × Parser :=
  parser.settled definitionWithin

def external (parser : Parser) : Except SyntaxError Prototype × Parser :=
  parser.settled externalWithin

def bareExpression (parser : Parser) : Except SyntaxError Definition × Parser :=
  parser.settled bareExpressionWithin

def topLevel (parser : Parser) : Except SyntaxError TopLevel × Parser :=
  parser.settled topLevelWithin

def expectCharacter (parser : Parser) (c : Char) (kind : SyntaxError.Kind) :
    Except SyntaxError Token × Parser :=
  (parser.expect c kind).settle parser

end Parser
end Kaleidoscope
