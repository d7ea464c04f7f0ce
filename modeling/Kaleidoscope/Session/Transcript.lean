import Kaleidoscope.Session.Sink

/-!
# Transcripts

## The read loop

A session shows its prompt and then goes round: it asks its parser for a unit,
reports what became of it, hands it over, and shows the prompt again.  The first
operation that fails ends the session at once.
-/

namespace Kaleidoscope
namespace Session

def showPrompt (limits : Limits) (settings : Settings) : Action Unit := do
  if settings.prompting then
    write limits promptText
    flush limits

def reportUnit (limits : Limits) (unit : TopLevel) : Action Unit :=
  write limits (unitReport unit)

def reportError (limits : Limits) (style : Style) (error : SyntaxError) : Action Unit :=
  match style with
  | .plain => write limits (errorLine error)
  | .snippet text => do
      write limits (errorLine error)
      write limits (Snippet.render error text)

/-- One turn of the loop up to its prompt, unless the input is at its end. -/
def turn (limits : Limits) (settings : Settings) (parser : Parser) :
    Action (Option Parser) :=
  match parser.current.kind with
  | .endOfInput => return none
  | .character ';' => return some parser.advance
  | _ =>
      match parser.topLevel with
      | (.ok unit, rest) => do
          reportUnit limits unit
          deliver limits (.ok unit)
          return some rest
      | (.error error, rest) => do
          reportError limits settings.style error
          let next := rest.advance
          deliver limits (.error error)
          return some next

def loopWithin (limits : Limits) (settings : Settings) : Nat -> Parser -> Action Unit
  | 0, _ => return
  | bound + 1, parser => do
      match ← turn limits settings parser with
      | none => return
      | some next =>
          showPrompt limits settings
          loopWithin limits settings bound next

/-- Every turn uses a token, so the bound is not met before the input ends. -/
def loop (limits : Limits) (settings : Settings) (parser : Parser) : Action Unit :=
  loopWithin limits settings parser.pending parser

def session (limits : Limits) (settings : Settings) (scanner : Scanner) : Action Unit := do
  showPrompt limits settings
  loop limits settings (.start scanner)
  flush limits

def run (limits : Limits) (settings : Settings) (scanner : Scanner) : Transcript :=
  conclude ((session limits settings scanner).run (.empty none))

end Session
end Kaleidoscope
