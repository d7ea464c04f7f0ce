import Kaleidoscope.Parser.TopLevel

/-!
# Rounds of the read loop

## One unit, one error, or one semicolon

A session reads its source in rounds.  A round skips a semicolon, or reads a
unit, or meets a syntax error and drops the one token that the error describes.
The session ends where the lookahead is the end of the input.
-/

namespace Kaleidoscope

abbrev Outcome :=
  Except SyntaxError TopLevel

instance : DecidableEq Outcome
  | .ok x, .ok y => decidable_of_iff (x = y) (by simp)
  | .error x, .error y => decidable_of_iff (x = y) (by simp)
  | .ok _, .error _ => isFalse nofun
  | .error _, .ok _ => isFalse nofun

namespace Session

structure Round where
  /-- What was read; nothing for a semicolon. -/
  outcome? : Option Outcome
  next : Parser

def round? (parser : Parser) : Option Round :=
  match parser.current.kind with
  | .endOfInput => none
  | .character ';' => some ⟨none, parser.advance⟩
  | _ =>
      match parser.topLevel with
      | (.ok unit, rest) => some ⟨some (.ok unit), rest⟩
      | (.error error, rest) => some ⟨some (.error error), rest.advance⟩

def roundsWithin : Nat -> Parser -> List Round
  | 0, _ => []
  | bound + 1, parser =>
      match round? parser with
      | none => []
      | some round => round :: roundsWithin bound round.next

def rounds (parser : Parser) : List Round :=
  roundsWithin parser.pending parser

def outcomes (parser : Parser) : List Outcome :=
  (rounds parser).filterMap Round.outcome?

end Session

/-- What became of each unit of a text. -/
def parseSource (text : String) : List Outcome :=
  Session.outcomes (.start (.start (.ofString text) Scanner.unnamed))

def successes (outcomes : List Outcome) : List TopLevel :=
  outcomes.filterMap Except.toOption

end Kaleidoscope
