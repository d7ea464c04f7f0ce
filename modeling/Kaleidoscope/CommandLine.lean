import Kaleidoscope.CommandLine.Run

/-!
# The command line

## Arguments

Arguments are read from left to right.  Two dashes alone end the flags; one dash
alone is a file name.  The first argument that asks for help or for the version
decides, unless an earlier one is wrong.  A flag may stand once, takes no value,
and at most one file may be named, by a name that is not empty.
-/

namespace Kaleidoscope
namespace CommandLine

def helpText : String :=
  "Parse Kaleidoscope definitions, externs and expressions.\n\n" ++
    "Usage: kaleid [OPTIONS] [FILE]\n\n" ++
    "Options:\n" ++
    "      --no-prompt  Do not print `ready> ` prompts\n" ++
    "      --dump-ast   Print the syntax tree of every parsed unit to stdout\n" ++
    "      --print      Print every parsed unit back in source form to stdout\n" ++
    "      --snippets   Show a source snippet for each syntax error (file input only)\n" ++
    "  -h, --help       Print help\n" ++
    "  -V, --version    Print version\n"

def versionText : String :=
  "kaleid 0.1.0\n"

inductive Request where
  | run (options : Options)
  | say (text : String)
  | misuse
deriving DecidableEq

def setFlag? (options : Options) (argument : String) : Option Options :=
  if argument = "--no-prompt" ∧ options.noPrompt = false then
    some { options with noPrompt := true }
  else if argument = "--dump-ast" ∧ options.dumpAst = false then
    some { options with dumpAst := true }
  else if argument = "--print" ∧ options.print = false then
    some { options with print := true }
  else if argument = "--snippets" ∧ options.snippets = false then
    some { options with snippets := true }
  else
    Option.none

def setFile? (options : Options) (argument : String) : Option Options :=
  if argument = "" ∨ options.file?.isSome then
    Option.none
  else
    some { options with file? := some argument }

/-- A request in long or short form; further letters after the short one are not read. -/
def ask? (argument : String) : Option Request :=
  if argument = "--help" ∨ "-h".isPrefixOf argument then
    some (.say helpText)
  else if argument = "--version" ∨ "-V".isPrefixOf argument then
    some (.say versionText)
  else
    Option.none

def isFlag (argument : String) : Bool :=
  "-".isPrefixOf argument && argument != "-"

def readFrom (flagsEnded : Bool) (options : Options) : List String -> Request
  | [] => .run options
  | argument :: rest =>
      if !flagsEnded && argument == "--" then
        readFrom true options rest
      else if !flagsEnded && isFlag argument then
        match ask? argument, setFlag? options argument with
        | some request, _ => request
        | Option.none, some options => readFrom false options rest
        | Option.none, Option.none => .misuse
      else
        match setFile? options argument with
        | some options => readFrom flagsEnded options rest
        | Option.none => .misuse

def read (arguments : List String) : Request :=
  readFrom false .none arguments

/-- Runs the request of the arguments; nothing for a misuse, whose text is left open. -/
def run? (arguments : List String) (files : String -> FileState) (input : List UInt8) :
    Option Result :=
  match read arguments with
  | .run options => some (runOptions options files input)
  | .say text => some ⟨0, text, ""⟩
  | .misuse => Option.none

end CommandLine
end Kaleidoscope
