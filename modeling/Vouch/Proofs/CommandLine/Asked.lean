import Vouch.CommandLine.Run
import Vouch.Proofs.Store.Held

namespace Vouch

/-- The words of a command line ask for a command about a credential file and a root. The file and
the root are given with flags or by variables of the world, and how much of the journal is shown is
not left blank. -/
def Command.AskedBy (command : Command) (world : Surroundings) (path root : String)
    (args : List String) : Prop :=
  ∃ r, Request.read args = .ok (some r) ∧ r.command = command ∧ r.level ≠ .blank ∧
    world.either r.credentials credentialsVariable = some path ∧
    world.either r.root rootVariable = some root

/-- The world in which every file has the same content. -/
def Surroundings.filing (content : List UInt8) : Surroundings where
  environment _ := none
  file _ := .bytes content
  now := .dawn

/-- How many places a ranking has if so many are asked for. -/
def Said.places (count : Said Int) : Int := count.value?.getD ({} : Settings).listed

variable {world : Surroundings} {path root : String}

namespace Command

variable {g : Graph}

theorem AskedBy.runProgram_eq {command : Command} {args : List String}
    (asked : command.AskedBy world path root args) :
    ∃ level, runProgram world args = { command.run world path root with level } := by
  obtain ⟨r, read, rfl, filled, atPath, atRoot⟩ := asked
  simp only [runProgram, read, Request.run, if_neg filled, atPath, atRoot]
  exact ⟨_, rfl⟩

theorem AskedBy.root_ne {command : Command} {args : List String}
    (asked : command.AskedBy world path root args) : root ≠ "" := by
  obtain ⟨r, _, _, _, _, atRoot⟩ := asked
  rintro rfl
  simp [Surroundings.either, filled, Option.filter_eq_some_iff] at atRoot

theorem run_score (id : String)
    (found : Graph.build {} root world.now (.file path (world.file path)) = .ok g) :
    ∃ journal, (score id).run world path root =
      .after journal (.print (g.score ({} : Settings).weights id).fields) := by
  simp only [run, run.built, run.store, run.settings, found]
  exact ⟨_, rfl⟩

theorem run_top {count : Said Int} (given : count ≠ .blank) (target : Option String)
    (found : Graph.build {} root world.now (.file path (world.file path)) = .ok g) :
    ∃ journal, (top count target).run world path root =
      .after journal (.tabulate world target
        (g.top ({} : Settings).weights count.places)) := by
  cases count with
  | blank => exact absurd rfl given
  | nothing =>
    simp only [run, run.reported, run.store, run.settings, Inquiry.report, Inquiry.graph, found]
    exact ⟨_, rfl⟩
  | value count =>
    simp only [run, run.reported, run.store, run.settings, Inquiry.report, Inquiry.graph, found]
    exact ⟨_, rfl⟩

/-- Words that ask for the score of one identity have it printed. -/
theorem AskedBy.score_output {id : String} {args : List String}
    (asked : (score id).AskedBy world path root args)
    (found : Graph.build {} root world.now (.file path (world.file path)) = .ok g) :
    (runProgram world args).output =
      Json.write 0 (.record (g.score ({} : Settings).weights id).fields) ++ "\n" := by
  obtain ⟨_, same⟩ := asked.runProgram_eq
  obtain ⟨_, ran⟩ := run_score id found
  rw [same, ran]
  rfl

/-- Words that ask for a ranking have so many rows of it printed as a table. -/
theorem AskedBy.top_output {count : Said Int} {target : Option String} {args : List String}
    (asked : (top count target).AskedBy world path root args) (given : count ≠ .blank)
    (found : Graph.build {} root world.now (.file path (world.file path)) = .ok g) :
    (runProgram world args).output =
      (Outcome.tabulate world target
        (g.top ({} : Settings).weights count.places)).output := by
  obtain ⟨_, same⟩ := asked.runProgram_eq
  obtain ⟨_, ran⟩ := run_top given target found
  rw [same, ran]
  rfl

end Command

end Vouch
