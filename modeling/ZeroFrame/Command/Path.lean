/-
This file reads the paths of files.

A path is a row of names between slashes. Empty names and those that stand for the place
itself do not matter and are left out when a path is told; a name that leads upward stays,
since what is above depends on the place. The lengths of names and of whole paths are
limited, and they are counted in bytes.
-/

namespace ZeroFrame.Command

/-- The name that leads to the folder above. -/
def upward : String := ".."

/-- The largest number of bytes that a name can have. -/
def nameLimit : Nat := 255

/-- The largest number of bytes that a path can have. -/
def pathLimit : Nat := 4095

/-- The names on the way along a path, without empty ones and those that stand for the place
itself. -/
def pathNames (path : String) : List String :=
  let (others, first) := path.toList.foldr
    (fun char (names, name) => if char = '/' then (name :: names, []) else (names, char :: name))
    (([], []) : List (List Char) × List Char)
  ((first :: others).map String.ofList).filter fun name => name ≠ "" ∧ name ≠ "."

/-- What a path starts with if it does not depend on the place where it is used: two slashes stand
for themselves, any other number for one. -/
def pathRoot : List Char → String
  | '/' :: '/' :: '/' :: _ => "/"
  | '/' :: '/' :: _ => "//"
  | '/' :: _ => "/"
  | _ => ""

/-- A path with nothing in it that does not matter; the empty one is the place where it is used. -/
def normalPath (path : String) : String :=
  let text := pathRoot path.toList ++ "/".intercalate (pathNames path)
  if text.isEmpty then "." else text

end ZeroFrame.Command
