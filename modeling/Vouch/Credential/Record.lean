import Vouch.Datum.Display
import Vouch.Datum.Sighting

namespace Vouch

/-- A credential as a store holds it. Nothing is known yet about the shape of its fields. -/
structure Record where
  id : Datum := .text ""
  schema : Datum := .text ""
  issuer : Datum := .text ""
  subject : Datum := .text ""
  attributes : Datum := .record []
  issuedAt : Datum := .null

/-- What a store lists: a record, or a value that has still to be taken for one. -/
inductive Item where
  | record (record : Record)
  | raw (value : Datum)

/-- The fields of a record that must be texts. -/
inductive Label where
  | schema
  | issuer
  | subject
  deriving DecidableEq

def Label.name : Label → String
  | .schema => "schema id"
  | .issuer => "issuer id"
  | .subject => "subject id"

/-- Why a record states no relation. -/
inductive Defect where
  | notObject (kind : String)
  | unsupported (kind : String)
  | idNotText (kind : String)
  | noId
  | attributesNotObject
  | notText (label : Label) (kind : String)
  | noIssuer
  | noSubject
  deriving DecidableEq

def Defect.describe : Defect → String
  | .notObject kind => "record is a " ++ kind ++ ", not an object"
  | .unsupported kind => "unsupported record type " ++ kind
  | .idNotText kind => "credential id is a " ++ kind ++ ", not a string"
  | .noId => "missing credential id"
  | .attributesNotObject => "attribute block is not an object"
  | .notText label kind => label.name ++ " is a " ++ kind ++ ", not a string"
  | .noIssuer => "no resolvable issuer id"
  | .noSubject => "no resolvable subject id"

/-- A defect, and the credential that has it as far as it is known. -/
structure Malformed where
  id : String
  defect : Defect
  deriving DecidableEq

def Malformed.message (m : Malformed) : String :=
  "credential '" ++ (if m.id = "" then "<no id>" else m.id) ++ "': " ++ m.defect.describe

/-- What makes a record go unread that may be well-formed: a point in time outside of the calendar,
or a value without a text. -/
inductive Interruption where
  | outside (cause : OutsideCalendar)
  | unwritten (cause : Unwritten)
  deriving DecidableEq

def Interruption.message : Interruption → String
  | .outside cause => cause.message
  | .unwritten cause => cause.message

/-- Why an item yields no credential: it is malformed, or reading it was broken off. -/
inductive Undecoded where
  | malformed (cause : Malformed)
  | interrupted (cause : Interruption)
  deriving DecidableEq

/-- A value that a text is needed of has none. -/
def Undecoded.unwritten (cause : Unwritten) : Undecoded := .interrupted (.unwritten cause)

namespace Record

/-- A field is given unless it is absent, null or the empty text. -/
def isGiven : Datum → Bool
  | .null => false
  | .text value => value != ""
  | _ => true

/-- The first field given, of several that mean the same. -/
def firstGiven? (names : List String) (fields : List (String × Datum)) : Option Datum :=
  names.findSome? fun name => (field? name fields).filter isGiven

/-- The first field given as a text. A value that says nothing is the empty text, any other one is
displayed. -/
def displayed (names : List String) (fields : List (String × Datum)) : Except Unwritten String :=
  match firstGiven? names fields with
  | none => .ok ""
  | some value => if value.isVoid then .ok "" else value.display

/-- Takes an object for a record. Its fields may go by the names of a cache or by those of an
exchange between stores. -/
def ofFields (fields : List (String × Datum)) : Except Unwritten Record := do
  let id ← displayed ["id", "said", "d"] fields
  let schema ← displayed ["schemaID", "schema", "s"] fields
  let issuer ← displayed ["issuerAID", "issuer", "i"] fields
  let subject ← displayed ["subjectAID", "recipient", "subject"] fields
  return {
    id := .text id
    schema := .text schema
    issuer := .text issuer
    subject := .text subject
    attributes := (firstGiven? ["data", "attributes", "a"] fields).getD (.record [])
    issuedAt := (firstGiven? ["issuedAt", "issuanceDate"] fields).getD .null }

/-- Takes a value for a record, which must be an object. -/
def ofDatum : Datum → Except Undecoded Record
  | .record fields => (ofFields fields).mapError .unwritten
  | value => .error (.malformed ⟨"", .notObject value.kindName⟩)

end Record

end Vouch
