import Vouch.Address.Fetch
import Vouch.CommandLine.Request
import Vouch.Files.Home
import Vouch.Graph.Build
import Vouch.Json.Printer

namespace Vouch

/-- What the program sees of the world: variables, what lies at paths, and the time. -/
structure Surroundings where
  environment : String → Option String
  file : String → FileState
  now : Reading

def credentialsVariable : String := "TRUST_GRAPH_CREDENTIALS"

def rootVariable : String := "TRUST_GRAPH_ROOT_AID"

/-- The variable that holds the directory of whoever asks. -/
def homeVariable : String := "HOME"

/-- What was said with a flag, or else stands in a variable. The empty text says nothing. -/
def Surroundings.either (world : Surroundings) (said : Option String) (name : String) :
    Option String :=
  filled ((filled said).or (world.environment name))

/-- The home directory of a user. -/
def Surroundings.home? (world : Surroundings) (user : String) : Option String :=
  if user = "" then world.environment homeVariable else homeIn? (world.file accountsPath) user

/-- A line for the user: a notice, or a line of the journal. -/
inductive Line where
  | notice (text : String)
  | entry (entry : Entry)
  deriving DecidableEq

namespace Line

/-- The entry that a line shows. -/
def entry? : Line → Option Entry
  | entry e => some e
  | notice _ => none

/-- Whether a line is shown if the journal is shown from a level on. -/
def isShown (level : Level) : Line → Bool
  | entry e => e.matters level
  | notice _ => true

end Line

/-- The matters that must not be left blank. -/
inductive Matter where
  | level
  | depth
  | around
  | count
  deriving DecidableEq

/-- What cannot be done with nothing in the place of a value. -/
def Matter.complaint : Matter → String
  | level => "'list' object has no attribute 'upper'"
  | depth => "'<' not supported between instances of 'list' and 'int'"
  | around => "unhashable type: 'list'"
  | count => "'<=' not supported between instances of 'list' and 'int'"

/-- What the program does not come with. -/
inductive Supplement where
  | chains
  | zstandard
  deriving DecidableEq

def Supplement.name : Supplement → String
  | chains => "fsspec"
  | zstandard => "zstandard"

/-- Why the program breaks off. -/
inductive Breakdown where
  | build (cause : BuildFault)
  | blank (matter : Matter)
  | noDirectory (path : String)
  | nullInPath
  | blocked (path : String) (obstacle : Obstacle)
  | full
  | address (cause : AddressFault)
  | fetch (cause : FetchFault)
  | missing (supplement : Supplement)
  deriving DecidableEq

def Breakdown.message : Breakdown → String
  | .build cause => cause.message
  | .blank matter => matter.complaint
  | .noDirectory path => "Cannot save file into a non-existent directory: '" ++ path ++ "'"
  | .nullInPath => nullComplaint
  | .blocked path obstacle => obstacle.message path
  | .full => fullComplaint
  | .address cause => cause.message
  | .fetch cause => cause.message
  | .missing supplement =>
    "`Import " ++ supplement.name ++ "` failed.  Use pip, conda, or your preferred package " ++
      "management tool to install the " ++ supplement.name ++ " package."

/-- How the program ends. -/
inductive Ending where
  | exit (code : Nat)
  | breakdown (cause : Breakdown)
  deriving DecidableEq

/-- What the program does: what it prints, what it has for the user and from which level on the
journal is shown, what it writes into a file, and how it ends. -/
structure Outcome where
  output : String := ""
  lines : List Line := []
  level : Level := .warning
  saved : Option (String × List UInt8) := none
  ending : Ending := .exit 0

namespace Outcome

/-- All that happened on the way, shown or not. -/
def journal (o : Outcome) : List Entry := o.lines.filterMap Line.entry?

/-- The lines that the user sees. -/
def shown (o : Outcome) : List Line := o.lines.filter (·.isShown o.level)

/-- An outcome, and the journal that led to it. -/
def after (journal : List Entry) (o : Outcome) : Outcome :=
  { o with lines := journal.map .entry ++ o.lines }

/-- Refuses a request that makes no sense. -/
def refuse (text : String) : Outcome :=
  { lines := [.notice ("error: " ++ text)], ending := .exit 2 }

/-- Breaks off. -/
def stop (cause : Breakdown) : Outcome := { ending := .breakdown cause }

/-- A graph could not be built. A store that says so is a failure of the program, anything else
makes it break off. -/
def failed : BuildFault → Outcome
  | .store cause =>
    if cause.isReported then
      { lines := [.entry ⟨.error, .commandLine, cause.message⟩], ending := .exit 1 }
    else .stop (.build (.store cause))
  | cause => .stop (.build cause)

/-- Prints fields as an object. -/
def print (fields : List (String × Datum)) : Outcome :=
  { output := Json.write 0 (.record fields) ++ "\n" }

end Outcome

end Vouch
