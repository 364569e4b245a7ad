import Vouch.Credential.Record
import Vouch.Files
import Vouch.Json.Reader
import Vouch.Text.Utf8

namespace Vouch

/-- A collection of credentials: held in memory, out of order, or in a file. -/
inductive Store where
  | memory (items : List Item)
  | failing (message : String)
  | file (path : String) (state : FileState)

/-- Why a store cannot list its credentials. -/
inductive StoreFault where
  | failing (message : String)
  | nullInPath
  | blocked (path : String) (obstacle : Obstacle)
  | malformed (path : String) (text : List Char) (complaint : Json.Complaint) (position : Nat)
  | noArray (path : String)
  | undecodable (cause : Utf8.Undecodable)
  | tooManyDigits (count : Nat)
  | tooDeep (enclosure : Json.Enclosure)
  | interrupted (cause : Interruption)
  deriving DecidableEq

namespace StoreFault

/-- A store that is out of reach, or whose content is no credential array, says so. A path that is
none, and a file that is not a text or goes beyond the limits of numbers and nesting, make reading
break off. -/
def isReported : StoreFault → Bool
  | nullInPath | undecodable _ | tooManyDigits _ | tooDeep _ | interrupted _ => false
  | _ => true

def message : StoreFault → String
  | failing message => message
  | nullInPath => nullComplaint
  | blocked path obstacle => cannotRead path (obstacle.message path)
  | malformed path text complaint position =>
    cannotRead path ((Json.Fault.located complaint position).message text)
  | noArray path => path ++ " does not contain a credential array"
  | undecodable cause => cause.message
  | tooManyDigits count => (Json.Fault.tooManyDigits count).message []
  | tooDeep enclosure => (Json.Fault.tooDeep enclosure).message []
  | interrupted cause => cause.message
where
  cannotRead (path reason : String) : String :=
    "cannot read credentials from " ++ path ++ ": " ++ reason

end StoreFault

/-- The value that the content of a credential file stands for. -/
def valueOf (path : String) (content : List UInt8) : Except StoreFault Datum :=
  match Utf8.decode content with
  | .error cause => .error (.undecodable cause)
  | .ok cs =>
    let text := Text.unifyLines cs
    match Json.read text with
    | .ok value => .ok value
    | .error (.located complaint position) => .error (.malformed path text complaint position)
    | .error (.tooManyDigits count) => .error (.tooManyDigits count)
    | .error (.tooDeep enclosure) => .error (.tooDeep enclosure)

/-- The value in a credential file. A device that takes nothing more is read like an empty file,
though it would give null characters without end. -/
def FileState.value (path : String) (state : FileState) : Except StoreFault Datum :=
  if holdsNull path then .error .nullInPath
  else
    match state with
    | .blocked obstacle => .error (.blocked path obstacle)
    | .full => valueOf path []
    | .bytes content => valueOf path content

/-- The entries of a credential file: those of an array, or of the array that an object has under
`credentials`. -/
def entriesOf (path : String) (value : Datum) : Except StoreFault (List Datum) :=
  let payload := match value with
    | .record fields => (field? "credentials" fields).getD .null
    | value => value
  match payload with
  | .list entries => .ok entries
  | _ => .error (.noArray path)

/-- The entries of a file. -/
def FileState.entries (path : String) (state : FileState) : Except StoreFault (List Datum) :=
  match state.value path with
  | .error fault => .error fault
  | .ok value => entriesOf path value

/-- The records among entries. An entry that is no object is passed over, and one that interrupts
reading ends it all. -/
def recordsOf : List Datum → Except Interruption (List Record)
  | [] => .ok []
  | entry :: entries =>
    match Record.ofDatum entry with
    | .error (.interrupted cause) => .error cause
    | .error (.malformed _) => recordsOf entries
    | .ok r => (recordsOf entries).map (r :: ·)

namespace Store

/-- The store as it is when paths lead to what is given. A file may have changed since it was last
looked at. -/
def refresh (look : String → FileState) : Store → Store
  | file path _ => .file path (look path)
  | store => store

/-- Everything that a store holds, in its order. -/
def list : Store → Except StoreFault (List Item)
  | memory items => .ok items
  | failing message => .error (.failing message)
  | file path state =>
    match state.entries path with
    | .error fault => .error fault
    | .ok entries =>
      match recordsOf entries with
      | .error cause => .error (.interrupted cause)
      | .ok records => .ok (records.map Item.record)

end Store

end Vouch
