import Vouch.CommandLine.Saving
import Vouch.Journal.Scoring

namespace Vouch

/-- Does what a command asks for, with a credential file and a root that are known. -/
def Command.run (world : Surroundings) (path root : String) : Command → Outcome
  | .graph around depth summed =>
    if depth ≠ .nothing ∧ around = .nothing then .refuse "--depth requires --aid"
    else if depth = .blank then .stop (.blank .depth)
    else if depth.value?.any (· < 0) then .refuse "--depth must be >= 0"
    else if around = .blank then built fun _ => .stop (.blank .around)
    else
      reported { root, around := around.value?, depth := depth.value? } none fun r =>
        .print (r.graph.fields ++
          if summed then [("summary", .record r.summary.fields)] else [])
  | .score id => built fun g => .print (g.score settings.weights id).fields
  | .top .blank _ =>
    built fun g => .after (g.scoresJournal settings.weights) (.stop (.blank .count))
  | .top count target => reported { root } count.value? fun r => .tabulate world target r.top
  | .summary => reported { root } none fun r => .print r.summary.fields
where
  settings : Settings := {}
  store : Store := .file path (world.file path)
  built (present : Graph → Outcome) : Outcome :=
    .after (Graph.buildJournal settings.naming root world.now store)
      (match Graph.build settings.naming root world.now store with
        | .error fault => .failed fault
        | .ok g => present g)
  reported (inquiry : Inquiry) (count : Option Int) (present : Report → Outcome) : Outcome :=
    .after (inquiry.journal settings world.now store count)
      (match inquiry.report settings world.now store count with
        | .error fault => .failed fault
        | .ok r => present r)

/-- Does what is asked for. Warnings and errors are shown if nothing is said about it. -/
def Request.run (world : Surroundings) (r : Request) : Outcome :=
  if r.level = .blank then .stop (.blank .level)
  else
    match world.either r.credentials credentialsVariable, world.either r.root rootVariable with
    | none, _ => .refuse ("--credentials (or $" ++ credentialsVariable ++ ") is required")
    | some _, none => .refuse ("--root (or $" ++ rootVariable ++ ") is required")
    | some path, some root =>
      { r.command.run world path root with level := r.level.value?.getD .warning }

/-- How the program is called. -/
def usage : String :=
  "usage: " ++ programName ++ " COMMAND [options]\n\n" ++
    "  graph    print the graph, or what lies around --aid within --depth hops\n" ++
    "  score    print the score of one identity\n" ++
    "  top      print the -n highest scores, and write them to --csv\n" ++
    "  summary  print the graph in numbers\n\n" ++
    "All commands take --credentials (or $" ++ credentialsVariable ++ "), --root (or $" ++
    rootVariable ++ ") and --log-level.\n"

/-- The whole program, from the words of its command line to what it does. -/
def runProgram (world : Surroundings) (args : List String) : Outcome :=
  match Request.read args with
  | .error e => { lines := [.notice e.message], ending := .exit 2 }
  | .ok none => { output := usage }
  | .ok (some request) => request.run world

end Vouch
