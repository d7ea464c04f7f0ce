/-!
# Outlines

## Nested groups on one line or on many

An outline is a text, a labelled outline, or a group of parts between two
brackets.  On one line the parts are separated by commas.  On many lines every
part has a line of its own, four spaces deeper than its group, and ends in a
comma.  A group without parts is its brackets in either form.
-/

namespace Kaleidoscope

inductive Outline where
  | leaf (text : String)
  | labelled (label : String) (content : Outline)
  | group (opening padding : String) (parts : List Outline) (closing : String)

namespace Outline

def tuple (name : String) (parts : List Outline) : Outline :=
  .group (name ++ "(") "" parts ")"

def record (name : String) (fields : List Outline) : Outline :=
  .group (name ++ " \x7b") " " fields "\x7d"

def list (items : List Outline) : Outline :=
  .group "[" "" items "]"

mutual

def flat : Outline -> String
  | .leaf text => text
  | .labelled label content => label ++ ": " ++ content.flat
  | .group opening _ [] closing => opening ++ closing
  | .group opening padding (part :: rest) closing =>
      opening ++ padding ++ part.flat ++ flatRest rest ++ padding ++ closing

def flatRest : List Outline -> String
  | [] => ""
  | part :: rest => ", " ++ part.flat ++ flatRest rest

end

def newLine (depth : Nat) : String :=
  String.ofList ('\n' :: List.replicate (4 * depth) ' ')

mutual

def indented (depth : Nat) : Outline -> String
  | .leaf text => text
  | .labelled label content => label ++ ": " ++ content.indented depth
  | .group opening _ [] closing => opening ++ closing
  | .group opening _ (part :: rest) closing =>
      opening ++ newLine (depth + 1) ++ part.indented (depth + 1) ++ "," ++
        indentedRest (depth + 1) rest ++ newLine depth ++ closing

def indentedRest (depth : Nat) : List Outline -> String
  | [] => ""
  | part :: rest => newLine depth ++ part.indented depth ++ "," ++ indentedRest depth rest

end

end Outline
end Kaleidoscope
