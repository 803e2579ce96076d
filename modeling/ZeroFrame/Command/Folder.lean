/-
This file finds contents in a folder that is known completely.

A path is followed name by name. Each name must be looked up in a folder, so a path that goes
on after a file, or after a name that is not found, leads nowhere, whatever comes later; and
a name that is too long is noticed only when it is looked up. There is always a folder above
another one. Of what lies outside the known folder, only what every system has is known.
-/

import ZeroFrame.Command.Run

namespace ZeroFrame.Command

/-- Files by the names on the way to them. -/
structure Folder where
  files : List (List String × Bytes)
  deriving DecidableEq, Repr

/-! ### Places -/

/-- A place on the way along a path. -/
inductive Place where
  /-- The known folder, or what the names lead to from there. -/
  | inside (names : List String)
  /-- A folder above the known one. -/
  | above
  /-- What the names lead to from the root. -/
  | outside (names : List String)
  /-- A place of which nothing is known. -/
  | nowhere
  deriving DecidableEq, Repr

namespace Place

def start (path : String) : Place := if pathRoot path.toList = "" then inside [] else outside []

/-- The folder above a place; the root is above itself. -/
def parent : Place → Place
  | inside [] => above
  | inside names => inside names.dropLast
  | above => above
  | outside names => outside names.dropLast
  | nowhere => nowhere

/-- The place to which a name leads. -/
def child (name : String) : Place → Place
  | inside names => inside (names ++ [name])
  | above => nowhere
  | outside names => outside (names ++ [name])
  | nowhere => nowhere

end Place

/-! ### Following a path -/

/-- The folders that every system has in its root. -/
def rootFolders : List String :=
  ["bin", "boot", "dev", "etc", "home", "lib", "media", "mnt", "opt", "proc", "root", "run",
    "sbin", "srv", "sys", "tmp", "usr", "var"]

/-- What names lead to from the root. -/
def outsideContent : List String → Content
  | [] => .folder
  | [name] => if name ∈ rootFolders then .folder else .missing
  | ["dev", "null"] => .bytes []
  | _ => .missing

namespace Folder

def content (folder : Folder) : Place → Content
  | .inside names =>
    match folder.files.lookup names with
    | some bytes => .bytes bytes
    | none =>
      if names = [] ∨ folder.files.any fun (path, _) => names.isPrefixOf path then .folder
      else .missing
  | .above => .folder
  | .outside names => outsideContent names
  | .nowhere => .missing

/-- Follows one name from a place, unless that ends the way. -/
def follow (folder : Folder) (place : Place) (name : String) : Except Content Place :=
  match folder.content place with
  | .folder =>
    if nameLimit < name.utf8ByteSize then .error .nameTooLong
    else .ok (if name = upward then place.parent else place.child name)
  | _ => .error .missing

def find (folder : Folder) (path : String) : Content :=
  if path.toList.contains '\x00' then .missing
  else if pathLimit < path.utf8ByteSize then .nameTooLong
  else
    match (pathNames path).foldlM folder.follow (Place.start path) with
    | .error content => content
    | .ok place => folder.content place

/-- What is found at a source, with the given bytes as input. -/
def contentOf (folder : Folder) (input : Bytes) : Source → Content
  | .input => .bytes input
  | .file path => folder.find path

/-- The outcome of a command line in a folder. -/
def run (folder : Folder) (memory : Memory) (input : Bytes) (arguments : List String) :
    Except Fault Result :=
  match plan memory arguments with
  | .finished outcome => outcome
  | .reading source resume => resume (folder.contentOf input source)

end Folder

end ZeroFrame.Command
