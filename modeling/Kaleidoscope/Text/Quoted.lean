import Kaleidoscope.Text.Combining
import Kaleidoscope.Text.Invisible
import Kaleidoscope.Text.Unassigned

/-!
# Quoted text

## Escapes inside quotation marks

A quoted text names every character that would be lost on a page.  The quotation
mark and the backslash take a backslash before them, four controls have letters
of their own, and any other invisible, unassigned or combining character is
written as its code in lower-case hexadecimal digits between braces.
-/

namespace Kaleidoscope
namespace Text

def codeEscape (c : Char) : List Char :=
  ['\\', 'u', '\x7b'] ++ Nat.toDigits 16 c.toNat ++ ['\x7d']

/-- A character that would be lost, or that would join its neighbour. -/
def isLost (c : Char) : Bool :=
  isInvisible c || isUnassigned c || isCombining c

def escape (mark c : Char) : List Char :=
  if c = mark ∨ c = '\\' then
    ['\\', c]
  else if c = '\x00' then
    ['\\', '0']
  else if c = '\t' then
    ['\\', 't']
  else if c = '\n' then
    ['\\', 'n']
  else if c = '\r' then
    ['\\', 'r']
  else if isLost c then
    codeEscape c
  else
    [c]

def quote (mark : Char) (text : List Char) : String :=
  String.ofList (mark :: text.flatMap (escape mark) ++ [mark])

def quoteString (text : String) : String :=
  quote '\x22' text.toList

def quoteChar (c : Char) : String :=
  quote '\x27' [c]

end Text
end Kaleidoscope
