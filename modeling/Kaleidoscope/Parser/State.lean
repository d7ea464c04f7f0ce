import Kaleidoscope.Operators
import Kaleidoscope.Scanner
import Kaleidoscope.SyntaxError

/-!
# Parser states

## One token of lookahead

A parser holds a scanner, exactly one token of lookahead, and its own operator
table.  Errors describe the lookahead and leave it in place.
-/

namespace Kaleidoscope

structure Parser where
  scanner : Scanner
  current : Token
  operators : Operators
deriving DecidableEq

namespace Parser

def start (scanner : Scanner) : Parser :=
  ⟨scanner.next.2, scanner.next.1, .standard⟩

def advance (parser : Parser) : Parser :=
  { parser with scanner := parser.scanner.next.2, current := parser.scanner.next.1 }

def install (parser : Parser) (op : Char) (precedence : Int32) : Parser :=
  { parser with operators := parser.operators.install op precedence }

def precedence (parser : Parser) : Int32 :=
  parser.operators.precedence parser.current.kind

def atCharacter (parser : Parser) (c : Char) : Bool :=
  parser.current.isCharacter c

def position (parser : Parser) : Position :=
  parser.current.span.start

def errorHere (parser : Parser) (kind : SyntaxError.Kind) : SyntaxError :=
  ⟨kind, parser.current.lexeme, parser.position⟩

/-- An upper bound for the number of tokens left, the lookahead among them. -/
def pending (parser : Parser) : Nat :=
  parser.scanner.cursor.pending + 1

end Parser
end Kaleidoscope
