import Vouch.CommandLine.Grammar
import Vouch.Journal.Entry

namespace Vouch

/-- What was said about a matter: nothing, something blank, or a value. -/
inductive Said (α : Type) where
  | nothing
  | blank
  | value (a : α)
  deriving DecidableEq

namespace Said

/-- The value that was said. -/
def value? {α : Type} : Said α → Option α
  | value a => some a
  | _ => none

end Said

/-- What can be asked for on the command line. -/
inductive Command where
  | graph (around : Said String) (depth : Said Int) (summed : Bool)
  | score (id : String)
  | top (count : Said Int) (target : Option String)
  | summary
  deriving DecidableEq

/-- A command, and what all commands have in common: the credential file, the root of the
organization, and how much of the journal is shown. -/
structure Request where
  command : Command
  credentials : Option String
  root : Option String
  level : Said Level
  deriving DecidableEq

/-- A command line that is not understood, and the command that it belongs to if that is known. -/
structure UsageError where
  command : Option String
  fault : UsageFault
  deriving DecidableEq

/-- The name under which the program is called. -/
def programName : String := "trust_graph"

def UsageError.message (e : UsageError) : String :=
  (match e.command with
    | none => programName
    | some command => programName ++ " " ++ command) ++ ": error: " ++ e.fault.message

namespace Flag

def help : Flag := ⟨["-h", "--help"], .help⟩

def credentials : Flag := ⟨["--credentials"], .text⟩

def root : Flag := ⟨["--root"], .text⟩

def logLevel : Flag := ⟨["--log-level"], .oneOf (Level.all.map Level.name)⟩

def around : Flag := ⟨["--aid"], .text⟩

def depth : Flag := ⟨["--depth"], .number⟩

def summary : Flag := ⟨["--summary"], .nothing⟩

def count : Flag := ⟨["-n"], .number⟩

def target : Flag := ⟨["--csv"], .text⟩

/-- The flags that all commands share. -/
def common : List Flag := [help, credentials, root, logLevel]

end Flag

/-- The commands by their names. -/
def grammars : List (String × Grammar) :=
  [("graph", ⟨Flag.common ++ [Flag.around, Flag.depth, Flag.summary], none⟩),
    ("score", ⟨Flag.common, some "AID"⟩),
    ("top", ⟨Flag.common ++ [Flag.count, Flag.target], none⟩),
    ("summary", ⟨Flag.common, none⟩)]

def commandNames : List String := grammars.map (·.1)

/-- The words before the name of a command: it is possible to ask for help, and for nothing else. -/
def outerGrammar : Grammar := ⟨[Flag.help], some "COMMAND"⟩

namespace Parsed

def setting? (p : Parsed) (f : Flag) : Option Setting :=
  (p.settings.find? (·.1 == f)).map (·.2)

/-- What was said with a flag, as far as it is of the kind that is looked for. -/
def said {α : Type} (p : Parsed) (f : Flag) (read : Setting → Option α) : Said α :=
  match p.setting? f with
  | none => .nothing
  | some setting =>
    match read setting with
    | none => .blank
    | some a => .value a

def text (p : Parsed) (f : Flag) : Said String :=
  p.said f fun
    | .text value => some value
    | _ => none

def number (p : Parsed) (f : Flag) : Said Int :=
  p.said f fun
    | .number value => some value
    | _ => none

def level (p : Parsed) : Said Level :=
  p.said .logLevel fun
    | .text value => Level.ofName? value
    | _ => none

def isOn (p : Parsed) (f : Flag) : Bool := p.setting? f == some .on

/-- The command of a name with what was said to it. -/
def command (p : Parsed) (name : String) : Command :=
  if name = "graph" then .graph (p.text .around) (p.number .depth) (p.isOn .summary)
  else if name = "score" then .score (p.operand.getD "")
  else if name = "top" then .top (p.number .count) (p.text .target).value?
  else .summary

def request (p : Parsed) (name : String) : Request where
  command := p.command name
  credentials := (p.text .credentials).value?
  root := (p.text .root).value?
  level := p.level

end Parsed

/-- The words of a command line up to the name of the command: words that mean nothing, whether
help is wanted, and the words from the name on. -/
structure Opening where
  extra : List String := []
  help : Bool := false
  rest : List String := []

/-- Looks for the name of the command among words that are paired with what they are. -/
def opening (o : Opening) : List (String × Word) → Except UsageFault Opening
  | [] => .ok o
  | (text, .unknown _) :: rest => opening { o with extra := o.extra ++ [text] } rest
  | (_, .flag m) :: _ => (outerGrammar.bundle m).map fun _ => { o with help := true }
  | (text, .operand _) :: rest => .ok { o with rest := text :: rest.map (·.1) }
  | [(text, .separator)] => .ok { o with extra := o.extra ++ [text] }
  | (text, .separator) :: rest => .ok { o with rest := text :: rest.map (·.1) }

/-- What a command line asks for. Nothing means that help is wanted. -/
def readCommand (extra : List String) (name : String) (args : List String) :
    Except UsageError (Option Request) :=
  match (grammars.find? (·.1 == name)).map (·.2) with
  | none => .error ⟨none, .noCommand name commandNames⟩
  | some grammar =>
    match (grammar.words args).bind (grammar.parse {}) with
    | .error fault => .error ⟨some name, fault⟩
    | .ok p =>
      if p.help then .ok none
      else
        match grammar.operand, p.operand with
        | some operand, none => .error ⟨some name, .missing operand⟩
        | _, _ =>
          if extra ++ p.extra ≠ [] then .error ⟨none, .unrecognized (extra ++ p.extra)⟩
          else .ok (some (p.request name))

/-- Reads the words of a command line. Nothing means that help is wanted. -/
def Request.read (args : List String) : Except UsageError (Option Request) :=
  match (outerGrammar.words args).bind fun words => opening {} (args.zip words) with
  | .error fault => .error ⟨none, fault⟩
  | .ok o =>
    if o.help then .ok none
    else
      match o.rest with
      | [] => .error ⟨none, .missing "COMMAND"⟩
      | name :: args => readCommand o.extra name args

end Vouch
