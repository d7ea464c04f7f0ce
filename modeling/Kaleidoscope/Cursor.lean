import Kaleidoscope.Position
import Kaleidoscope.Source

/-!
# Cursors

## One character of lookahead

A cursor stands in a source with exactly one character pulled and not yet used,
or with none once the source has answered with nothing.  A cursor that has met
the end asks its source no more.  Before the first character is pulled the
lookahead is a space, which every reader skips.

Each operation pulls characters one by one, until the lookahead is the first
character that it does not use.
-/

namespace Kaleidoscope

structure Cursor where
  lookahead : Option Char
  source : Source
  pulled : Nat
deriving DecidableEq

namespace Cursor

def start (source : Source) : Cursor :=
  ⟨some ' ', source, 0⟩

/-- The number of characters before the lookahead, or before the end. -/
def offset (cursor : Cursor) : Nat :=
  match cursor.lookahead with
  | some _ => Position.clamp cursor.pulled - 1
  | none => Position.clamp cursor.pulled

def pending (cursor : Cursor) : Nat :=
  match cursor.lookahead with
  | some _ => cursor.source.answers.length + 1
  | none => 0

/-!
# Pulling a run of characters

The first character of the run is the lookahead and is used without a test.
-/

def pullWhileFrom (p : Char -> Bool) (pulled : Nat) :
    List (Option Char) -> List Char × Cursor
  | [] => ([], ⟨none, ⟨[]⟩, pulled⟩)
  | none :: rest => ([], ⟨none, ⟨rest⟩, pulled⟩)
  | some c :: rest =>
      if p c then
        let run := pullWhileFrom p (pulled + 1) rest
        (c :: run.1, run.2)
      else
        ([], ⟨some c, ⟨rest⟩, pulled + 1⟩)

def pullWhile (p : Char -> Bool) (cursor : Cursor) : List Char × Cursor :=
  pullWhileFrom p cursor.pulled cursor.source.answers

/-!
# Skipping layout

Layout is blank characters and comments.  A comment begins with `#` and ends
before the next line feed or carriage return, which is blank again.
-/

def isSpace (c : Char) : Bool :=
  c == ' ' || c == '\t' || c == '\n' || c == '\r' || c == '\x0b' || c == '\x0c'

def isLineEnd (c : Char) : Bool :=
  c == '\n' || c == '\r'

/-- Whether a comment is open after a layout character; nothing for any other character. -/
def layoutStep? (inComment : Bool) (c : Char) : Option Bool :=
  if inComment then
    some !isLineEnd c
  else if isSpace c then
    some false
  else if c = '#' then
    some true
  else
    none

def skipLayoutFrom (inComment : Bool) (c : Char) (pulled : Nat)
    (answers : List (Option Char)) : Cursor :=
  match layoutStep? inComment c with
  | none => ⟨some c, ⟨answers⟩, pulled⟩
  | some inComment =>
      match answers with
      | [] => ⟨none, ⟨[]⟩, pulled⟩
      | none :: rest => ⟨none, ⟨rest⟩, pulled⟩
      | some d :: rest => skipLayoutFrom inComment d (pulled + 1) rest

def skipLayout (cursor : Cursor) : Cursor :=
  match cursor.lookahead with
  | none => cursor
  | some c => skipLayoutFrom false c cursor.pulled cursor.source.answers

end Cursor
end Kaleidoscope
