import Std.Time.DateTime.Timestamp
import Vouch.CommandLine.Run

namespace Vouch

/-- The obstacle behind a failure to read a file. -/
def obstacleOf : IO.Error → Obstacle
  | .inappropriateType _ code _ => if code = 21 then .isDirectory else .notDirectory
  | .invalidArgument .. => .longName
  | _ => .absent

/-- What lies at a path. -/
def stateOf (path : String) : IO FileState := do
  try
    return .bytes (← IO.FS.readBinFile path).toList
  catch e => return .blocked (obstacleOf e)

/-- The device that is always full. -/
def fullDevice : String := "/dev/full"

/-- What lies at a path, without the content of a file. -/
def outlineOf (path : String) : IO FileState := do
  try
    let handle ← IO.FS.Handle.mk path .read
    if (← IO.FS.realPath path).toString = fullDevice then return .full
    let _ ← handle.read 1
    return .bytes []
  catch e => return .blocked (obstacleOf e)

/-- The reading of universal time at this moment. -/
def currentReading : IO Reading := do
  let nanos := (← Std.Time.Timestamp.now).toNanosecondsSinceUnixEpoch.val
  return (Reading.ofEpoch? (nanos / 1000)).getD ⟨0, by decide⟩

/-- The paths that have to be looked at before a table can be saved. -/
def Target.paths : Target → List String
  | .path place => [place, parentOf place]
  | .address request => if request.scheme = "file" then [request.localPath] else []

/-- Looks at all that a request may want to see. -/
def lookAround (args : List String) : IO Surroundings := do
  let names := [credentialsVariable, rootVariable, homeVariable]
  let values ← names.mapM fun name => return (name, ← IO.getEnv name)
  let blind : Surroundings := {
    environment := fun name => (values.lookup name).join
    file := fun _ => .blocked .absent
    now := ← currentReading }
  let seeing (states : List (String × FileState)) : Surroundings :=
    { blind with file := fun path => (states.lookup path).getD (.blocked .absent) }
  match Request.read args with
  | .ok (some request) =>
    let paths := (blind.either request.credentials credentialsVariable).toList
    let read ← (accountsPath :: paths).mapM fun path => return (path, ← stateOf path)
    let target := match request.command with
      | .top _ (some text) => ((seeing read).target text).toOption
      | _ => none
    let outlines ← ((target.map Target.paths).getD []).mapM fun path =>
      return (path, ← outlineOf path)
    return seeing (read ++ outlines)
  | _ => return blind

end Vouch

open Vouch in
/-- Runs the program. It breaks off with the code one. -/
def main (args : List String) : IO UInt32 := do
  let o := runProgram (← lookAround args) args
  let clock ← currentReading
  for line in o.shown do
    match line with
    | .notice text => IO.eprintln text
    | .entry e => IO.eprintln (clock.writeSeconds ++ "  " ++ e.shown)
  if let some (path, content) := o.saved then IO.FS.writeBinFile path ⟨content.toArray⟩
  IO.print o.output
  match o.ending with
  | .exit code => return code.toUInt32
  | .breakdown cause =>
    IO.eprintln cause.message
    return 1
