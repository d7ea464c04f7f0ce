import Kaleidoscope.SyntaxError
import Kaleidoscope.Text.Blank

/-!
# Snippets

## Lines of a text

A text is cut after each line feed.  A position before the end of the text lies
on the line that holds its character; the end of the text lies on the last line,
one column past its last character.  An empty text has one empty line.
-/

namespace Kaleidoscope

structure LinePlace where
  number : Nat
  line : List Char
  column : Nat
deriving DecidableEq

namespace Snippet

def lines : List Char -> List (List Char)
  | [] => []
  | c :: rest =>
      if c = '\n' then
        [c] :: lines rest
      else
        match lines rest with
        | [] => [[c]]
        | line :: others => (c :: line) :: others

def placeIn (number : Nat) : List (List Char) -> Nat -> Option LinePlace
  | [], offset => if offset = 0 then some ⟨number, [], 0⟩ else none
  | [line], offset => if offset ≤ line.length then some ⟨number, line, offset⟩ else none
  | line :: next :: rest, offset =>
      if offset < line.length then
        some ⟨number, line, offset⟩
      else
        placeIn (number + 1) (next :: rest) (offset - line.length)

def placeAt? (text : List Char) (offset : Nat) : Option LinePlace :=
  placeIn 1 (lines text) offset

/-!
# Rendering

The line is shown without its indentation and without blanks at its end, beside
a gutter as wide as its number.  A caret under it marks the column of the error.
-/

def isIndentation (c : Char) : Bool :=
  c == ' ' || c == '\t'

def fill (count : Nat) (c : Char) : String :=
  String.ofList (List.replicate count c)

def excerpt (place : LinePlace) : String :=
  let number := toString place.number
  let gutter := fill (number.length + 1) ' ' ++ "|"
  let indentation := (place.line.takeWhile isIndentation).length
  let shown := Text.trimRight (place.line.drop indentation)
  gutter ++ "\n" ++
    number ++ " | " ++ String.ofList shown ++ "\n" ++
    gutter ++ " " ++ fill (place.column - indentation) '-' ++ "^\n"

/-- An error shown against a text: its name, its file, and the line it lies on. -/
def render (error : SyntaxError) (text : String) : String :=
  let found :=
    match error.tip? with
    | none => ""
    | some tip => " (" ++ tip ++ ")"
  "Error: " ++ error.name ++ found ++ "\n-> " ++ error.position.file ++ "\n" ++
    match placeAt? text.toList error.position.offset with
    | none => "   " ++ error.message ++ "\n"
    | some place => excerpt place

end Snippet
end Kaleidoscope
