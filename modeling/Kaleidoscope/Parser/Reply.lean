import Kaleidoscope.Parser.State

/-!
# Replies

## Parsed, failed, or too deep

Parsing within a bounded depth replies with a value or with an error, and with
the parser as it stands then, or it replies that the depth was too small.  A
sequence of steps stops at the first one that does not give a value.
-/

namespace Kaleidoscope
namespace Parser

inductive Reply (α : Type) where
  | parsed (value : α) (rest : Parser)
  | failed (error : SyntaxError) (rest : Parser)
  | tooDeep

namespace Reply

def andThen (reply : Reply α) (next : α -> Parser -> Reply β) : Reply β :=
  match reply with
  | .parsed value rest => next value rest
  | .failed error rest => .failed error rest
  | .tooDeep => .tooDeep

def map (f : α -> β) (reply : Reply α) : Reply β :=
  reply.andThen fun value rest => .parsed (f value) rest

/-- The outcome and the parser after it; a reply that is too deep fails at the start. -/
def settle (start : Parser) (reply : Reply α) : Except SyntaxError α × Parser :=
  match reply with
  | .parsed value rest => (.ok value, rest)
  | .failed error rest => (.error error, rest)
  | .tooDeep => (.error (start.errorHere .unknownToken), start)

end Reply

def fail (parser : Parser) (kind : SyntaxError.Kind) : Reply α :=
  .failed (parser.errorHere kind) parser

def expect (parser : Parser) (c : Char) (kind : SyntaxError.Kind) : Reply Token :=
  if parser.atCharacter c then
    .parsed parser.current parser.advance
  else
    parser.fail kind

/-- A depth that is enough for every construct that begins at the lookahead. -/
def depth (parser : Parser) : Nat :=
  4 * parser.pending + 8

def settled (parser : Parser) (parse : Nat -> Parser -> Reply α) :
    Except SyntaxError α × Parser :=
  (parse parser.depth parser).settle parser

end Parser
end Kaleidoscope
