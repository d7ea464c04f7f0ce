import Kaleidoscope.CommandLine

/-!
# The program

A named file is read at once, the standard input piece by piece.  The events of
a run are carried out in order, as soon as they are due.
-/

namespace Kaleidoscope
namespace Main

open CommandLine

def readFile (name : String) : IO FileState := do
  try
    return .content (← IO.FS.readBinFile name).data.toList
  catch
    | .noFileOrDirectory .. => return .missing
    | .permissionDenied .. => return .denied
    | .inappropriateType _ 21 _ => return .directory
    | .inappropriateType .. => return .notDirectory
    | .invalidArgument .. => return .nameTooLong
    | _ => return .missing

/-- The only file that a run asks for is the one that is named. -/
def readFiles (options : Options) : IO (String -> FileState) := do
  match options.file? with
  | none => return fun _ => .missing
  | some name =>
      let file ← readFile name
      return fun _ => file

def nextPiece (options : Options) : IO (List UInt8) := do
  if options.file?.isSome then
    return []
  else
    return (← (← IO.getStdin).read 65536).data.toList

def carryOut (options : Options) (event : Session.Event) : IO Unit := do
  let errors ← IO.getStderr
  let output ← IO.getStdout
  match event with
  | .write text => errors.putStr text
  | .flush => errors.flush
  | .deliver _ =>
      output.putStr (eventOutput options event)
      output.flush

partial def converse (options : Options) (files : String -> FileState)
    (conversation : Conversation) : IO UInt32 := do
  let (due, conversation) := conversation.catchUp options files
  due.forM (carryOut options)
  let piece ← nextPiece options
  if piece.isEmpty then
    let rest := conversation.rest options files
    rest.events.forM (carryOut options)
    return rest.exit.toUInt32
  else
    converse options files (conversation.hear piece)

end Main
end Kaleidoscope

open Kaleidoscope in
def main (arguments : List String) : IO UInt32 := do
  match CommandLine.read arguments with
  | .run options => Main.converse options (← Main.readFiles options) .start
  | .say text =>
      IO.print text
      return 0
  | .misuse =>
      IO.eprint CommandLine.helpText
      return 2
