import Vouch.CommandLine.Outcome
import Vouch.Packing
import Vouch.Score.Table

namespace Vouch

namespace Surroundings

/-- Why nothing can be saved in the directory of a path, which has to be there. -/
def parentFault? (world : Surroundings) (path : String) : Option Breakdown :=
  let parent := parentOf path
  if holdsNull parent then some (.noDirectory parent)
  else
    match world.file parent with
    | .blocked .isDirectory => none
    | .blocked .longName => some (.blocked parent .longName)
    | _ => some (.noDirectory parent)

/-- Why a file cannot be written at a path, if the directory of the path is there. -/
def openFault? (world : Surroundings) (path : String) : Option Breakdown :=
  if holdsNull path then some .nullInPath
  else
    match (world.file path).writeObstacle? path with
    | some o => some (.blocked path o)
    | none => if world.file path = .full then some .full else none

/-- The file that a text at a path becomes. -/
def fileAt (world : Surroundings) (path text : String) (packing : Packing) :
    Except Breakdown (String × List UInt8) :=
  match world.parentFault? path with
  | some fault => .error fault
  | none =>
    match packing.pack? world.now path (Bytes.ofText text) with
    | none => .error (.missing .zstandard)
    | some content =>
      match world.openFault? path with
      | some fault => .error fault
      | none => .ok (path, content)

end Surroundings

/-- Where a table is to go. -/
inductive Target where
  | address (request : Fetch)
  | path (path : String)
  deriving DecidableEq

/-- The target that a text names: an address of a kind that is known, or a path that may begin with
a user. -/
def Surroundings.target (world : Surroundings) (text : String) : Except Breakdown Target :=
  let address := Address.ofText text
  match address.fault? with
  | some fault => .error (.address fault)
  | none =>
    if address.scheme.any (· ∈ Fetch.knownSchemes) then .ok (.address (Fetch.ofText text))
    else if Address.isChained text then .error (.missing .chains)
    else if (userOf? text).any holdsNull then .error .nullInPath
    else .ok (.path (atHome world.home? text))

/-- The file that a table becomes. What an address leads to is fetched, but a table that goes to an
address is lost. -/
def Surroundings.save (world : Surroundings) (text table : String) :
    Except Breakdown (Option (String × List UInt8)) :=
  let packing := Packing.ofPath text
  match world.target text with
  | .error fault => .error fault
  | .ok (.address request) =>
    match request.fault? world.file with
    | some fault => .error (.fetch fault)
    | none => if packing = .zstandard then .error (.missing .zstandard) else .ok none
  | .ok (.path path) => (world.fileAt path table packing).map some

/-- Prints a table of scores, after it was saved if that is wanted. -/
def Outcome.tabulate (world : Surroundings) (target : Option String)
    (scores : List (Score Float)) : Outcome :=
  let printed : Outcome := { output := Score.table scores ++ "\n" }
  match filled target with
  | none => printed
  | some target =>
    match world.save target (Score.commaTable scores) with
    | .error fault => .stop fault
    | .ok saved =>
      { printed with
        lines := [.entry ⟨.info, .commandLine, "Top " ++ toString scores.length ++
          " scores written to " ++ target ++ "."⟩]
        saved }

end Vouch
