namespace Vouch

/-- How much a line of the journal matters. -/
inductive Level where
  | debug
  | info
  | warning
  | error
  deriving DecidableEq

namespace Level

def name : Level → String
  | debug => "DEBUG"
  | info => "INFO"
  | warning => "WARNING"
  | error => "ERROR"

def all : List Level := [debug, info, warning, error]

def ofName? (name : String) : Option Level := all.find? (·.name == name)

def rank : Level → Nat
  | debug => 0
  | info => 1
  | warning => 2
  | error => 3

end Level

/-- The part of the work that a line of the journal comes from. -/
inductive Origin where
  | credential
  | building
  | neighborhood
  | distance
  | score
  | report
  | file
  | commandLine
  deriving DecidableEq

def Origin.name : Origin → String
  | .credential => "trust_graph.graph.credentials"
  | .building => "trust_graph.graph.builder"
  | .neighborhood => "trust_graph.graph.neighborhood"
  | .distance => "trust_graph.metrics.depth"
  | .score => "trust_graph.metrics.score"
  | .report => "trust_graph.pipeline"
  | .file => "trust_graph.storage.json_store"
  | .commandLine => "trust_graph.cli"

/-- A line of the journal. -/
structure Entry where
  level : Level
  origin : Origin
  message : String
  deriving DecidableEq

/-- Whether a line matters at least as much as a level. -/
def Entry.matters (level : Level) (e : Entry) : Bool := level.rank ≤ e.level.rank

/-- The lines of a journal that matter at least as much as a level. -/
def journalAt (level : Level) (entries : List Entry) : List Entry :=
  entries.filter (·.matters level)

/-- A line of the journal as it is shown. -/
def Entry.shown (e : Entry) : String :=
  e.level.name ++ String.ofList (List.replicate (8 - e.level.name.length) ' ') ++ "  " ++
    e.origin.name ++ ": " ++ e.message

end Vouch
