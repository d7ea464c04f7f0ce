import Kaleidoscope.Directory
import Kaleidoscope.Session.Event
import Kaleidoscope.Tree.SourceForm
import Kaleidoscope.Tree.Structure

/-!
# Runs of the program

## Streams

A run reads a named file or the standard input.  Progress and errors go to the
error stream, the units that were read to the output stream, in source form or
as an outline.
-/

namespace Kaleidoscope
namespace CommandLine

structure Options where
  file? : Option String
  noPrompt : Bool
  dumpAst : Bool
  print : Bool
  snippets : Bool
deriving DecidableEq

namespace Options

def none : Options :=
  ⟨Option.none, false, false, false, false⟩

end Options

/-- What a run does in order, and its exit code. -/
structure Course where
  events : List Session.Event
  exit : Nat

structure Result where
  exit : Nat
  output : String
  errors : String

def unitOutput (options : Options) (unit : TopLevel) : String :=
  (if options.print then unit.sourceForm ++ "\n" else "") ++
    (if options.dumpAst then unit.outline.indented 0 ++ "\n" else "")

def eventOutput (options : Options) : Session.Event -> String
  | .deliver (.ok unit) => unitOutput options unit
  | _ => ""

def eventDiagnostics : Session.Event -> String
  | .write text => text
  | _ => ""

def Course.drop (course : Course) (count : Nat) : Course :=
  { course with events := course.events.drop count }

def Course.result (options : Options) (course : Course) : Result where
  exit := course.exit
  output := String.join (course.events.map (eventOutput options))
  errors := String.join (course.events.map eventDiagnostics)

/-!
# Files and the standard input

A file is read character by character.  Standard input is read byte by byte and
never shown in snippets.
-/

def fileSettings (options : Options) (text : String) : Session.Settings :=
  ⟨!options.noPrompt, if options.snippets then .snippet text else .plain⟩

def fileScanner (name text : String) : Scanner :=
  .start (.ofString text) name

def inputSettings (options : Options) : Session.Settings :=
  ⟨!options.noPrompt, .plain⟩

def inputScanner (content : List UInt8) : Scanner :=
  .start (.ofBytes content) Scanner.unnamed

def fileCourse (options : Options) (name : String) (file : FileState) : Course :=
  match file.text with
  | .ok text => ⟨Session.events (fileSettings options text) (fileScanner name text), 0⟩
  | .error reason => ⟨[.write ("kaleid: " ++ reason ++ "\n")], 1⟩

def inputCourse (options : Options) (content : List UInt8) : Course :=
  ⟨Session.events (inputSettings options) (inputScanner content), 0⟩

/-- A run over a file if one is named and over the standard input otherwise. -/
def course (options : Options) (files : String -> FileState) (input : List UInt8) : Course :=
  match options.file? with
  | none => inputCourse options input
  | some name => fileCourse options name (files name)

def runOptions (options : Options) (files : String -> FileState) (input : List UInt8) :
    Result :=
  (course options files input).result options

/-!
# Input in pieces

The standard input comes in piece by piece.  After each piece the events are due
that no later piece can change, so that a prompt appears before the program waits
for more.
-/

def settledEvents (options : Options) (files : String -> FileState) (input : List UInt8) :
    List Session.Event :=
  match options.file? with
  | none => Session.settledEvents (inputSettings options) (inputScanner input)
  | some name => (fileCourse options name (files name)).events

structure Conversation where
  input : List UInt8
  done : Nat

namespace Conversation

def start : Conversation :=
  ⟨[], 0⟩

def hear (conversation : Conversation) (piece : List UInt8) : Conversation :=
  { conversation with input := conversation.input ++ piece }

/-- The events that are due, and the conversation once they are carried out. -/
def catchUp (options : Options) (files : String -> FileState)
    (conversation : Conversation) : List Session.Event × Conversation :=
  let settled := settledEvents options files conversation.input
  (settled.drop conversation.done, { conversation with done := settled.length })

def rest (options : Options) (files : String -> FileState) (conversation : Conversation) :
    Course :=
  (course options files conversation.input).drop conversation.done

end Conversation

end CommandLine
end Kaleidoscope
