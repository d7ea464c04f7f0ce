/-!
# Sources of characters

## Answers still to come

A source is asked for one character at a time and answers with a character or
with nothing.  Its value is the list of answers it still has to give; after the
last of them it answers with nothing for ever.

A text answers with its characters.  A script of reads answers with one
character per byte, and with nothing once for every read that yields no byte or
fails, whatever comes after it.
-/

namespace Kaleidoscope

structure Source where
  answers : List (Option Char)
deriving DecidableEq

namespace Source

def next (source : Source) : Option Char × Source :=
  match source.answers with
  | [] => (none, source)
  | answer :: rest => (answer, ⟨rest⟩)

def take : Nat -> Source -> List (Option Char)
  | 0, _ => []
  | count + 1, source => source.next.1 :: take count source.next.2

def ofChars (text : List Char) : Source :=
  ⟨text.map some⟩

def ofString (text : String) : Source :=
  ofChars text.toList

/-!
# Scripts of reads

A read hands over some bytes, fails, or is interrupted.  An interrupted read is
tried again and leaves no trace.
-/

inductive Read where
  | bytes (content : List UInt8)
  | failure
  | interrupted
deriving DecidableEq

def ofByte (byte : UInt8) : Char :=
  Char.ofNat byte.toNat

def Read.answers : Read -> List (Option Char)
  | .bytes [] => [none]
  | .bytes (byte :: rest) => (byte :: rest).map fun b => some (ofByte b)
  | .failure => [none]
  | .interrupted => []

def ofReads (script : List Read) : Source :=
  ⟨script.flatMap Read.answers⟩

def ofBytes (content : List UInt8) : Source :=
  ofReads [.bytes content]

end Source
end Kaleidoscope
