import Kaleidoscope.Cursor
import Kaleidoscope.Token

/-!
# Scanners

## Tokens on demand

A scanner is a cursor in a named file.  It skips layout, then takes the longest
lexeme that the next character begins, and stops with the character after the
lexeme as its lookahead.  At the end of its source it gives the token of the
end again and again.
-/

namespace Kaleidoscope

structure Scanner where
  cursor : Cursor
  file : String
deriving DecidableEq

namespace Scanner

def unnamed : String :=
  "shell"

def start (source : Source) (file : String) : Scanner :=
  ⟨.start source, file⟩

def next (scanner : Scanner) : Token × Scanner :=
  let cursor := scanner.cursor.skipLayout
  match cursor.lookahead with
  | none => (.ofLexeme [] cursor.offset cursor.offset scanner.file, { scanner with cursor })
  | some first =>
      let run := cursor.pullWhile (Token.continues first)
      (.ofLexeme (first :: run.1) cursor.offset run.2.offset scanner.file,
        { scanner with cursor := run.2 })

def take : Nat -> Scanner -> List Token
  | 0, _ => []
  | count + 1, scanner => scanner.next.1 :: take count scanner.next.2

def tokensWithin : Nat -> Scanner -> List Token
  | 0, scanner => [scanner.next.1]
  | bound + 1, scanner =>
      if scanner.next.1.isEnd then
        [scanner.next.1]
      else
        scanner.next.1 :: tokensWithin bound scanner.next.2

/-- All tokens up to and including the end of the input. -/
def tokens (scanner : Scanner) : List Token :=
  tokensWithin scanner.cursor.pending scanner

end Scanner

def tokenize (text file : String) : List Token :=
  (Scanner.start (.ofString text) file).tokens

end Kaleidoscope
