import Vouch.Text.Quoted

namespace Vouch

/-- What stands in the way of opening a file. -/
inductive Obstacle where
  | absent
  | notDirectory
  | isDirectory
  | longName
  deriving DecidableEq

namespace Obstacle

/-- The number under which systems know an obstacle. -/
def number : Obstacle → Nat
  | absent => 2
  | notDirectory => 20
  | isDirectory => 21
  | longName => 36

def describe : Obstacle → String
  | absent => "No such file or directory"
  | notDirectory => "Not a directory"
  | isDirectory => "Is a directory"
  | longName => "File name too long"

/-- An obstacle at a path, as systems tell of it. -/
def message (o : Obstacle) (path : String) : String :=
  "[Errno " ++ toString o.number ++ "] " ++ o.describe ++ ": " ++ Text.quoted path

end Obstacle

/-- What opening a path comes to. A device may be full and have room for nothing. -/
inductive FileState where
  | bytes (content : List UInt8)
  | full
  | blocked (obstacle : Obstacle)
  deriving DecidableEq

/-- The complaint of a device that has no room. -/
def fullComplaint : String := "[Errno 28] No space left on device"

/-- Systems end a path at the null character, so that no path can hold it. -/
def holdsNull (path : String) : Bool := path.toList.any (· = '\x00')

/-- The complaint about a path with the null character in it. -/
def nullComplaint : String := "embedded null byte"

/-- The names on a path. Doubled slashes count once. -/
def namesOf (path : String) : List String := (path.splitOn "/").filter (· ≠ "")

/-- The slashes at the beginning of a path from the top. Two of them are kept, more count once. -/
def rootOf (path : String) : String :=
  match path.toList.takeWhile (· = '/') with
  | [] => ""
  | ['/', '/'] => "//"
  | _ => "/"

/-- The directory of a path. A name that stays in place does not count. -/
def parentOf (path : String) : String :=
  let parent := rootOf path ++ "/".intercalate ((namesOf path).filter (· ≠ ".")).dropLast
  if parent = "" then "." else parent

/-- What keeps a file from being written at a path, if the directory of the path is there. A new
file needs a name of its own and no slash after it. -/
def FileState.writeObstacle? (path : String) (s : FileState) : Option Obstacle :=
  let isNew := match (namesOf path).getLast? with
    | none => false
    | some name => name ≠ "." && name ≠ ".."
  if isNew && path.toList.getLast? = some '/' then some .isDirectory
  else
    match s with
    | .bytes _ | .full => none
    | .blocked .absent => if isNew then none else some .absent
    | .blocked o => some o

end Vouch
