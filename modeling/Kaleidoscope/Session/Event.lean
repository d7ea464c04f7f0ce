import Kaleidoscope.Session.Round
import Kaleidoscope.Snippet

/-!
# Events of a session

## Diagnostics and deliveries in order

A session writes a prompt before every round and before the end, reports every
outcome on its diagnostic stream, and hands the outcome over after the report.
The last event is a flush.
-/

namespace Kaleidoscope
namespace Session

inductive Style where
  | plain
  | snippet (text : String)
deriving DecidableEq

structure Settings where
  prompting : Bool
  style : Style
deriving DecidableEq

inductive Event where
  | write (text : String)
  | flush
  | deliver (outcome : Outcome)
deriving DecidableEq

def promptText : String :=
  "ready> "

def prompt (settings : Settings) : List Event :=
  if settings.prompting then
    [.write promptText, .flush]
  else
    []

def unitReport : TopLevel -> String
  | .definition _ => "parsed a function definition\n"
  | .external _ => "parsed an extern\n"
  | .expression _ => "parsed a top-level expr\n"

def errorLine (error : SyntaxError) : String :=
  "error: " ++ error.message ++ "\n"

def errorReport (style : Style) (error : SyntaxError) : String :=
  errorLine error ++
    match style with
    | .plain => ""
    | .snippet text => Snippet.render error text

def report (style : Style) : Outcome -> String
  | .ok unit => unitReport unit
  | .error error => errorReport style error

def outcomeEvents (style : Style) (outcome : Outcome) : List Event :=
  [.write (report style outcome), .deliver outcome]

def roundEvents (settings : Settings) (round : Round) : List Event :=
  (round.outcome?.map (outcomeEvents settings.style)).getD [] ++ prompt settings

/-- All events of a session that nothing interrupts. -/
def events (settings : Settings) (scanner : Scanner) : List Event :=
  prompt settings ++
    (rounds (.start scanner)).flatMap (roundEvents settings) ++ [.flush]

/-!
# What is settled

A round that is over before the source has answered with nothing is not changed
by characters that come later.
-/

def Round.isSettled (round : Round) : Bool :=
  round.next.scanner.cursor.lookahead.isSome

def settledEvents (settings : Settings) (scanner : Scanner) : List Event :=
  prompt settings ++
    ((rounds (.start scanner)).takeWhile Round.isSettled).flatMap (roundEvents settings)

end Session
end Kaleidoscope
