import Vouch.Files
import Vouch.Text.Utf8

namespace Vouch

/-- Where systems keep the list of their users. -/
def accountsPath : String := "/etc/passwd"

/-- The home directory of a user in a list of users. Each has a line, with colons between its parts:
the name is the first of them and the directory the sixth. -/
def homeIn? (accounts : FileState) (user : String) : Option String :=
  match accounts with
  | .bytes content =>
    let lines := (String.ofList (Utf8.decodeAnyway content)).splitOn "\n"
    ((lines.map (·.splitOn ":")).find? (·.head? = some user)).bind (·[5]?)
  | _ => none

/-- The user that a path begins with: the name between a tilde and the first slash. The empty name
is that of whoever asks. -/
def userOf? (path : String) : Option String :=
  match path.toList with
  | '~' :: cs => some (String.ofList (cs.takeWhile (· ≠ '/')))
  | _ => none

/-- A path with the home directory in the place of a user. A user without one stays. -/
def atHome (home : String → Option String) (path : String) : String :=
  match userOf? path with
  | none => path
  | some user =>
    match home user with
    | none => path
    | some directory =>
      let front := (directory.toList.reverse.dropWhile (· = '/')).reverse
      let whole := String.ofList (front ++ path.toList.drop (user.length + 1))
      if whole = "" then "/" else whole

end Vouch
