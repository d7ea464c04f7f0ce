import Kaleidoscope.Position

/-!
# Syntax errors

## What was expected, and where

A syntax error says what would have been accepted, and holds the lexeme and the
position of the token that was met instead.  The lexeme is empty at the end of
the input.
-/

namespace Kaleidoscope

namespace SyntaxError

inductive Kind where
  | expectedCloseParen
  | expectedArgumentDelimiter
  | unknownToken
  | expectedFunctionName
  | expectedPrototypeOpenParen
  | expectedPrototypeCloseParen
deriving DecidableEq

def Kind.name : Kind -> String
  | .expectedCloseParen => "ExpectedCloseParen"
  | .expectedArgumentDelimiter => "ExpectedArgumentDelimiter"
  | .unknownToken => "UnknownToken"
  | .expectedFunctionName => "ExpectedFunctionName"
  | .expectedPrototypeOpenParen => "ExpectedPrototypeOpenParen"
  | .expectedPrototypeCloseParen => "ExpectedPrototypeCloseParen"

def Kind.message : Kind -> String
  | .expectedCloseParen => "expected: ')'"
  | .expectedArgumentDelimiter => "expected ')' or ',' in argument list"
  | .unknownToken => "unknown token when expecting an expression"
  | .expectedFunctionName => "expected function name in prototype"
  | .expectedPrototypeOpenParen => "expected '(' in prototype"
  | .expectedPrototypeCloseParen => "expected ')' in prototype"

end SyntaxError

structure SyntaxError where
  kind : SyntaxError.Kind
  lexeme : String
  position : Position
deriving DecidableEq

namespace SyntaxError

def name (error : SyntaxError) : String :=
  error.kind.name

def message (error : SyntaxError) : String :=
  error.kind.message

/-- What was found, unless it was the end of the input. -/
def tip? (error : SyntaxError) : Option String :=
  if error.lexeme.isEmpty then
    none
  else
    some ("found `" ++ error.lexeme ++ "`")

end SyntaxError
end Kaleidoscope
