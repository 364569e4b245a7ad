import Vouch.Credential.Basic
import Vouch.Credential.Record

namespace Vouch

/-- The first field that is a text with something in it, blanks at the ends apart. -/
def textAttribute? (names : List String) (fields : List (String × Datum)) : Option String :=
  names.findSome? fun name =>
    match field? name fields with
    | some (.text value) => if Text.strip value = "" then none else some (Text.strip value)
    | _ => none

/-- The texts in a list. Anything else in it does not count. -/
def textsOf : Option Datum → List String
  | some (.list items) | some (.tuple items) =>
    items.filterMap fun
      | .text value => some value
      | _ => none
  | _ => []

/-- A text field without the blanks at its ends. A missing one is empty. -/
def textField (id : String) (label : Label) : Datum → Except Undecoded String
  | .null => .ok ""
  | .text value => .ok (Text.strip value)
  | value => .error (.malformed ⟨id, .notText label value.kindName⟩)

/-- The names under which attributes say when a credential was issued, in the order in which they
are looked at. -/
def timeNames : List String := ["dt", "issuedAt", "issuanceDate", "joinedAt", "timestamp"]

/-- Who says something about whom: a record whose identifiers are resolved. -/
structure Resolved where
  id : String
  kind : Kind
  issuer : String
  subject : String
  attributes : List (String × Datum)

namespace Record

/-- The identifier of a credential, which has to be a text with something in it. A complaint about
any other value displays it. -/
def idText (r : Record) : Except Undecoded String :=
  match r.id with
  | .null => .error (.malformed ⟨"", .noId⟩)
  | .text value =>
    if Text.strip value = "" then .error (.malformed ⟨"", .noId⟩) else .ok (Text.strip value)
  | value =>
    match value.display with
    | .ok text => .error (.malformed ⟨text, .idNotText value.kindName⟩)
    | .error cause => .error (.unwritten cause)

/-- The attributes. None at all are as good as no attributes in them. -/
def attributeFields (id : String) (r : Record) : Except Undecoded (List (String × Datum)) :=
  match r.attributes with
  | .null => .ok []
  | .record fields => .ok fields
  | _ => .error (.malformed ⟨id, .attributesNotObject⟩)

/-- A field, or else an attribute, or else nothing. -/
def orElse (field : String) (other : Option String) : String :=
  if field = "" then other.getD "" else field

/-- Finds identifier, issuer and subject. A claim about oneself needs no subject. -/
def resolve (r : Record) : Except Undecoded Resolved := do
  let id ← r.idText
  let attributes ← r.attributeFields id
  let schema ← textField id .schema r.schema
  let kind := Kind.ofSchema schema
  let issuer ← textField id .issuer r.issuer
  let issuer := orElse issuer (textAttribute? ["issuer"] attributes)
  let subject ← textField id .subject r.subject
  let subject := orElse subject (textAttribute? ["i", "subject", "recipient"] attributes)
  let subject := if kind = .selfClaim ∧ subject = "" then issuer else subject
  if issuer = "" then throw (.malformed ⟨id, .noIssuer⟩)
  if subject = "" then throw (.malformed ⟨id, .noSubject⟩)
  return ⟨id, kind, issuer, subject, attributes⟩

/-- What the attributes say about the time of issue, and after them the record itself. -/
def sightings (r : Record) (attributes : List (String × Datum)) : List Sighting :=
  (timeNames.map fun name => Sighting.ofDatum ((field? name attributes).getD .null)) ++
    [Sighting.ofDatum r.issuedAt]

/-- The schema as it was written. -/
def schemaText (r : Record) : String :=
  match r.schema with
  | .text value => value
  | _ => ""

def content (r : Record) (found : Resolved) : Content :=
  let fields := found.attributes
  let permissions := textsOf (field? "permissions" fields)
  match found.kind with
  | .membership =>
    .membership (textAttribute? ["communityName"] fields)
      (textAttribute? ["verificationStatus"] fields) permissions
  | .steward => .steward permissions
  | .invitation => .invitation (textAttribute? ["message"] fields)
  | .selfClaim => .selfClaim
  | .other => .other r.schemaText

/-- The credential that a record holds, once issuer, subject and time of issue are known. -/
def credential (r : Record) (found : Resolved) (issuedAt : Option Reading) : Credential where
  id := found.id
  issuer := found.issuer
  subject := found.subject
  issuedAt := issuedAt
  role := textAttribute? ["role"] found.attributes
  displayName := textAttribute? ["displayName", "name"] found.attributes
  content := r.content found

/-- Decodes a record. Its shape is settled before its time of issue is looked at. -/
def decode (r : Record) : Except Undecoded Credential :=
  match r.resolve with
  | .error cause => .error cause
  | .ok found =>
    match Sighting.first? (r.sightings found.attributes) with
    | .error cause => .error (.interrupted (.outside cause))
    | .ok issuedAt => .ok (r.credential found issuedAt)

/-- The texts that were taken for times of issue and could not be read. -/
def unreadTimes (r : Record) : List String :=
  match r.resolve with
  | .error _ => []
  | .ok found => Sighting.unread (r.sightings found.attributes)

end Record

namespace Item

/-- The record that an item holds. -/
def toRecord : Item → Except Undecoded Record
  | record r => .ok r
  | raw (.record fields) => (Record.ofFields fields).mapError .unwritten
  | raw value => .error (.malformed ⟨"", .unsupported value.kindName⟩)

def decode (item : Item) : Except Undecoded Credential :=
  match item.toRecord with
  | .error cause => .error cause
  | .ok r => r.decode

def unreadTimes (item : Item) : List String :=
  match item.toRecord with
  | .error _ => []
  | .ok r => r.unreadTimes

end Item

end Vouch
