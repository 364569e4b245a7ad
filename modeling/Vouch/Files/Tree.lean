import Vouch.Files

namespace Vouch

/-- A tree of directories. Directories and files go by the names on the way to them. Paths that do
not begin at the top begin at the base. What is written into a sink is lost, and nothing can be
written into a full device. -/
structure FileTree where
  base : List String := []
  directories : List (List String)
  files : List (List String × List UInt8) := []
  sinks : List (List String) := []
  full : List (List String) := []

namespace FileTree

/-- Where a path begins. -/
def start (t : FileTree) (path : String) : List String :=
  if path.toList.head? = some '/' then [] else t.base

/-- The names on the way to the end of a path, without steps that stay in place or lead back. -/
def placeOf (t : FileTree) (path : String) : List String :=
  (namesOf path).foldl
    (fun here name =>
      if name = "." then here else if name = ".." then here.dropLast else here ++ [name])
    (t.start path)

/-- What is at a place that is no directory. -/
def stateAt (t : FileTree) (place : List String) : FileState :=
  if place ∈ t.sinks then .bytes []
  else if place ∈ t.full then .full
  else ((t.files.lookup place).map FileState.bytes).getD (.blocked .absent)

/-- Where names lead from a directory. A name is no longer than 255 bytes. -/
def follow (t : FileTree) (here : List String) : List String → FileState
  | [] => .blocked .isDirectory
  | name :: names =>
    if name = "." then t.follow here names
    else if name = ".." then t.follow here.dropLast names
    else if 255 < name.utf8ByteSize then .blocked .longName
    else if here ++ [name] ∈ t.directories then t.follow (here ++ [name]) names
    else
      match t.stateAt (here ++ [name]) with
      | .blocked o => .blocked o
      | state => if names.isEmpty then state else .blocked .notDirectory

/-- What lies at a path. A slash at the end asks for a directory. A path is shorter than 4096
bytes. -/
def state (t : FileTree) (path : String) : FileState :=
  let last := if path.toList.getLast? = some '/' then ["."] else []
  if 4096 ≤ path.utf8ByteSize then .blocked .longName
  else t.follow (t.start path) (namesOf path ++ last)

/-- Takes the file at a path away, if there is one. -/
def remove (t : FileTree) (path : String) : FileTree :=
  { t with files := t.files.filter (·.1 ≠ t.placeOf path) }

/-- Puts a file at a path, in the place of the one that was there. -/
def write (t : FileTree) (path : String) (content : List UInt8) : FileTree :=
  { t with files := (t.placeOf path, content) :: (t.remove path).files }

end FileTree

end Vouch
