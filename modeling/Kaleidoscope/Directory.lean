import Kaleidoscope.Text.Utf8

/-!
# Directories of files

## What a path leads to

A directory holds named files and no directories of its own.  A path is walked
name by name: an empty name and a single dot stay, two dots leave the directory,
and nothing is known of what lies outside it.  Only a path that ends at a file
leads to its bytes; a file has no names below it, not even an empty one.
-/

namespace Kaleidoscope

inductive FileState where
  | missing
  | denied
  | notDirectory
  | directory
  | nameTooLong
  | content (bytes : List UInt8)
deriving DecidableEq

def FileState.text : FileState -> Except String String
  | .missing => .error "No such file or directory (os error 2)"
  | .denied => .error "Permission denied (os error 13)"
  | .notDirectory => .error "Not a directory (os error 20)"
  | .directory => .error "Is a directory (os error 21)"
  | .nameTooLong => .error "File name too long (os error 36)"
  | .content bytes =>
      match Text.ofUtf8? bytes with
      | some text => .ok text
      | none => .error "stream did not contain valid UTF-8"

structure Directory where
  files : List (String × List UInt8)

namespace Directory

inductive Place where
  | inside
  | outside
  | file (content : List UInt8)

def names : List Char -> List (List Char)
  | [] => [[]]
  | c :: rest =>
      if c = '/' then
        [] :: names rest
      else
        match names rest with
        | [] => [[c]]
        | name :: others => (c :: name) :: others

def maxNameBytes : Nat :=
  255

def maxPathBytes : Nat :=
  4095

def walk (directory : Directory) : Place -> List String -> FileState
  | .file content, [] => .content content
  | .file _, _ :: _ => .notDirectory
  | _, [] => .directory
  | place, name :: rest =>
      if name = "" ∨ name = "." then
        walk directory place rest
      else if name = ".." then
        walk directory .outside rest
      else if maxNameBytes < (Text.utf8 name).length then
        .nameTooLong
      else
        match place, directory.files.lookup name with
        | .inside, some content => walk directory (.file content) rest
        | _, _ => .missing

/-- What a path leads to from inside the directory; a path from the root starts outside. -/
def find (directory : Directory) (path : String) : FileState :=
  if maxPathBytes < (Text.utf8 path).length then
    .nameTooLong
  else
    walk directory (if "/".isPrefixOf path then .outside else .inside)
      ((names path.toList).map String.ofList)

end Directory
end Kaleidoscope
