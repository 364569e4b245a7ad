import Vouch.Text.Integer
import Vouch.Text.Quoted

namespace Vouch

/-- What a flag takes: nothing, since it asks for help or is just set, or else a text, a number, or
one of some words. -/
inductive Takes where
  | help
  | nothing
  | text
  | number
  | oneOf (words : List String)
  deriving DecidableEq

/-- A flag of the command line, with all its names. -/
structure Flag where
  names : List String
  takes : Takes
  deriving DecidableEq

/-- What was said with a flag. It is blank if the separator is attached to the flag. -/
inductive Setting where
  | on
  | blank
  | text (value : String)
  | number (value : Int)
  deriving DecidableEq

/-- The words that a command takes: flags, and one operand if it has a name. -/
structure Grammar where
  flags : List Flag
  operand : Option String

/-- What is wrong with a command line. -/
inductive UsageFault where
  | ambiguous (word : String) (names : List String)
  | needsArgument (flag : Flag)
  | notInteger (flag : Flag) (word : String)
  | notChoice (flag : Flag) (word : String) (words : List String)
  | noCommand (word : String) (words : List String)
  | ignored (flag : Flag) (word : String)
  | missing (name : String)
  | unrecognized (words : List String)
  deriving DecidableEq

def Flag.title (f : Flag) : String := "/".intercalate f.names

/-- Whether a flag stands alone. -/
def Flag.isBare (f : Flag) : Bool := f.takes = .help || f.takes = .nothing

/-- The words from which one can be chosen. -/
def choices (words : List String) : String :=
  "(choose from " ++ ", ".intercalate (words.map Text.quoted) ++ ")"

def UsageFault.message : UsageFault → String
  | .ambiguous word names =>
    "ambiguous option: " ++ word ++ " could match " ++ ", ".intercalate names
  | .needsArgument flag => "argument " ++ flag.title ++ ": expected one argument"
  | .notInteger flag word =>
    "argument " ++ flag.title ++ ": invalid int value: " ++ Text.quoted word
  | .notChoice flag word words =>
    "argument " ++ flag.title ++ ": invalid choice: " ++ Text.quoted word ++ " " ++ choices words
  | .noCommand word words =>
    "argument COMMAND: invalid choice: " ++ Text.quoted word ++ " " ++ choices words
  | .ignored flag word =>
    "argument " ++ flag.title ++ ": ignored explicit argument " ++ Text.quoted word
  | .missing name => "the following arguments are required: " ++ name
  | .unrecognized words => "unrecognized arguments: " ++ " ".intercalate words

/-- A flag found by a word, the name by which it was found, and what is attached to it. -/
structure Match where
  flag : Flag
  name : String
  attached : Option String

/-- A word of the command line: an operand, the mark after which all words are operands, a flag that
is known, or one that is not known. -/
inductive Word where
  | operand (text : String)
  | separator
  | flag (found : Match)
  | unknown (text : String)

namespace Grammar

/-- All names of all flags, in order. -/
def names (g : Grammar) : List (Flag × String) :=
  g.flags.flatMap fun f => f.names.map fun name => (f, name)

def named? (g : Grammar) (name : String) : Option Flag :=
  (g.names.find? (·.2 == name)).map (·.1)

end Grammar

/-- Cuts a text at its first equals sign. -/
def cutAtEquals (cs : List Char) : List Char × Option String :=
  match cs.dropWhile (· ≠ '=') with
  | [] => (cs, none)
  | _ :: rest => (cs.takeWhile (· ≠ '='), some (String.ofList rest))

/-- The flags that a word may stand for. Long names may be cut short. What follows a short name in
the same word is attached to it. -/
def Grammar.matches (g : Grammar) (cs : List Char) : List Match :=
  match cs with
  | '-' :: '-' :: _ =>
    let (beginning, attached) := cutAtEquals cs
    g.names.filterMap fun (f, name) =>
      if beginning.isPrefixOf name.toList then some ⟨f, name, attached⟩ else none
  | _ =>
    g.names.filterMap fun (f, name) =>
      if name.toList = cs.take 2 then some ⟨f, name, some (String.ofList (cs.drop 2))⟩
      else if cs.isPrefixOf name.toList then some ⟨f, name, none⟩
      else none

/-- A word that looks like a negative number, with or without a point. -/
def looksNegative (cs : List Char) : Bool :=
  let isDigit := fun c => (Text.digitValue? c).isSome
  match cs with
  | '-' :: cs =>
    let cs := if cs.getLast? = some '\n' then cs.dropLast else cs
    match cs.dropWhile isDigit with
    | [] => !cs.isEmpty
    | '.' :: fraction => !fraction.isEmpty && fraction.all isDigit
    | _ => false
  | _ => false

/-- Says what a word is by itself. Words that begin with a hyphen are flags, but negative numbers
and unknown words with a space in them are operands. -/
def Grammar.word (g : Grammar) (text : String) : Except UsageFault Word :=
  let cs := text.toList
  if cs.head? ≠ some '-' then .ok (.operand text)
  else
    match g.named? text with
    | some f => .ok (.flag ⟨f, text, none⟩)
    | none =>
      if cs.length = 1 then .ok (.operand text)
      else
        match cutAtEquals cs with
        | (name, some attached) =>
          match g.named? (String.ofList name) with
          | some f => .ok (.flag ⟨f, String.ofList name, some attached⟩)
          | none => lookUp cs
        | _ => lookUp cs
where
  lookUp (cs : List Char) : Except UsageFault Word :=
    match g.matches cs with
    | [m] => .ok (.flag m)
    | [] =>
      if looksNegative cs || ' ' ∈ cs then .ok (.operand text) else .ok (.unknown text)
    | ms => .error (.ambiguous text (ms.map Match.name))

/-- Says what all words are. After the separator there are only operands. -/
def Grammar.words (g : Grammar) : List String → Except UsageFault (List Word)
  | [] => .ok []
  | text :: rest =>
    if text = "--" then .ok (.separator :: rest.map .operand)
    else
      match g.word text with
      | .error fault => .error fault
      | .ok word => (g.words rest).map (word :: ·)

/-- The flags that one word stands for: bare ones, and a last one with what is attached to it. -/
structure Bundle where
  bare : List Flag := []
  last : Flag
  attached : Option String := none

/-- Takes what is attached to a flag with a short name for further flags with short names, as long
as the flags are bare. -/
def Grammar.unbundle (g : Grammar) (f : Flag) : List Char → Except UsageFault Bundle
  | [] => .ok { last := f }
  | c :: cs =>
    if !f.isBare then .ok { last := f, attached := some (String.ofList (c :: cs)) }
    else
      match g.named? (String.ofList ['-', c]) with
      | none => .error (.ignored f (String.ofList (c :: cs)))
      | some next => (g.unbundle next cs).map fun b => { b with bare := f :: b.bare }

/-- The flags that a match stands for. A bare flag takes no text, and nothing but further flags may
be attached to it. -/
def Grammar.bundle (g : Grammar) (m : Match) : Except UsageFault Bundle :=
  match m.attached with
  | none => .ok { last := m.flag }
  | some text =>
    if !m.flag.isBare then .ok { last := m.flag, attached := some text }
    else if text = "" || m.name.length ≠ 2 then .error (.ignored m.flag text)
    else g.unbundle m.flag text.toList

namespace Bundle

def asksHelp (b : Bundle) : Bool := (b.last :: b.bare).any (·.takes = .help)

/-- Whether the last flag still needs a word of its own. -/
def needsWord (b : Bundle) : Bool := !b.last.isBare && b.attached.isNone

end Bundle

/-- What a text given to a flag means. -/
def Flag.read (f : Flag) (text : String) : Except UsageFault Setting :=
  match f.takes with
  | .help | .nothing => .error (.ignored f text)
  | .text => .ok (.text text)
  | .number =>
    match Text.integer? text with
    | some value => .ok (.number value)
    | none => .error (.notInteger f text)
  | .oneOf words =>
    if text ∈ words then .ok (.text text) else .error (.notChoice f text words)

/-- What a command line says. The last setting stands first, so that it is found first. Where help
is asked for, nothing else counts. -/
structure Parsed where
  settings : List (Flag × Setting) := []
  operand : Option String := none
  extra : List String := []
  help : Bool := false

namespace Parsed

/-- Sets a bare flag. -/
def setBare (p : Parsed) (f : Flag) : Parsed := { p with settings := (f, .on) :: p.settings }

/-- Sets a flag to what a text means, if there is one. -/
def set (p : Parsed) (f : Flag) (text : Option String) : Except UsageFault Parsed :=
  match text with
  | none => .ok (p.setBare f)
  | some text =>
    if text = "--" then .ok { p with settings := (f, .blank) :: p.settings }
    else (f.read text).map fun setting => { p with settings := (f, setting) :: p.settings }

/-- Sets the flags of a word, the last one to what a text means. -/
def take (p : Parsed) (b : Bundle) (text : Option String) : Except UsageFault Parsed :=
  if b.asksHelp then .ok { p with help := true }
  else (b.bare.foldl setBare p).set b.last text

end Parsed

/-- Takes words one after the other, until help is asked for. The separator goes with the operand
beside it. -/
def Grammar.parse (g : Grammar) (p : Parsed) : List Word → Except UsageFault Parsed
  | [] => .ok p
  | .unknown text :: rest => g.parse { p with extra := p.extra ++ [text] } rest
  | .flag m :: rest =>
    match g.bundle m with
    | .error fault => .error fault
    | .ok b =>
      if b.needsWord then
        match rest with
        | .operand text :: rest =>
          match p.take b (some text) with
          | .error fault => .error fault
          | .ok p => if p.help then .ok p else g.parse p rest
        | _ => .error (.needsArgument b.last)
      else
        match p.take b b.attached with
        | .error fault => .error fault
        | .ok p => if p.help then .ok p else g.parse p rest
  | .operand text :: rest =>
    if g.operand.isSome ∧ p.operand.isNone then
      match rest with
      | .separator :: rest => g.parse { p with operand := some text } rest
      | rest => g.parse { p with operand := some text } rest
    else g.parse { p with extra := p.extra ++ [text] } rest
  | .separator :: rest =>
    if g.operand.isSome ∧ p.operand.isNone then
      match rest with
      | .operand text :: rest => g.parse { p with operand := some text } rest
      | rest => g.parse { p with extra := p.extra ++ ["--"] } rest
    else g.parse { p with extra := p.extra ++ ["--"] } rest

end Vouch
