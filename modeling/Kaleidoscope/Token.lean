import Kaleidoscope.Decimal.Layout
import Kaleidoscope.Decimal.Numeral
import Kaleidoscope.Position
import Kaleidoscope.Text.Quoted

/-!
# Tokens

## Kinds and lexemes

The kind of a token is determined by its lexeme.  A letter begins a word, which
is a keyword or an identifier; a digit or a point begins a number; any other
character stands for itself, so operators and punctuation have no kinds of
their own.  Only the end of the input has an empty lexeme.
-/

namespace Kaleidoscope

namespace Token

inductive Kind where
  | endOfInput
  | define
  | external
  | identifier (name : String)
  | number (value : Binary64)
  | character (c : Char)
deriving DecidableEq

namespace Kind

def keyword? (word : String) : Option Kind :=
  if word = "def" then
    some .define
  else if word = "extern" then
    some .external
  else
    none

def ofWord (word : String) : Kind :=
  (keyword? word).getD (.identifier word)

end Kind

/-!
# Character classes

Letters and digits are those of ASCII.  The first character of a lexeme decides
which characters continue it.
-/

def isNumberPart (c : Char) : Bool :=
  c.isDigit || c == '.'

/-- The character `c` belongs to the lexeme that `first` begins. -/
def continues (first c : Char) : Bool :=
  if first.isAlpha then
    c.isAlphanum
  else
    isNumberPart first && isNumberPart c

def Kind.ofLexeme : List Char -> Kind
  | [] => .endOfInput
  | first :: rest =>
      if first.isAlpha then
        .ofWord (String.ofList (first :: rest))
      else if isNumberPart first then
        .number (Numeral.value (first :: rest))
      else
        .character first

end Token

structure Token where
  kind : Token.Kind
  lexeme : String
  span : Span
deriving DecidableEq

namespace Token

def ofLexeme (lexeme : List Char) (start stop : Nat) (file : String) : Token where
  kind := .ofLexeme lexeme
  lexeme := String.ofList lexeme
  span := ⟨⟨start, file⟩, ⟨stop, file⟩⟩

def isEnd (token : Token) : Bool :=
  token.kind == .endOfInput

def isCharacter (c : Char) (token : Token) : Bool :=
  token.kind == .character c

/-!
# Descriptions

A description names the kind of a token, with what the kind holds, and repeats
the lexeme.
-/

def Kind.describe : Kind -> String
  | .endOfInput => "EOF"
  | .define => "Def"
  | .external => "Extern"
  | .identifier name => "Identifier(" ++ Text.quoteString name ++ ")"
  | .number value => "Number(" ++ value.text .marked ++ ")"
  | .character c => "Char(" ++ Text.quoteChar c ++ ")"

def describe (token : Token) : String :=
  "Token \x7b\nkind: " ++ token.kind.describe ++ ",\nvalue: " ++ token.lexeme ++ "\x7d"

end Token
end Kaleidoscope
