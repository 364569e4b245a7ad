import Vouch.Proofs.Credential.Outside
import Vouch.Proofs.Datum.Display
import Vouch.Proofs.Text.Trimmed

namespace Vouch

/-- A value is a text or missing, and this is left of it without the blanks at its ends. -/
inductive Datum.Reads : Datum → String → Prop
  | missing : Reads .null ""
  | text (text : String) : Reads (.text text) (Text.strip text)

/-- A value is an object or missing, and has these fields. -/
inductive Datum.ReadsFields : Datum → List (String × Datum) → Prop
  | missing : ReadsFields .null []
  | record (fields : List (String × Datum)) : ReadsFields (.record fields) fields

theorem Datum.Reads.unique {d : Datum} {text other : String} (first : d.Reads text)
    (second : d.Reads other) : text = other := by
  cases first <;> cases second <;> rfl

theorem Datum.Reads.trimmed {d : Datum} {text : String} (reads : d.Reads text) :
    Text.Trimmed text := by
  cases reads with
  | missing => exact Text.strip_trimmed ""
  | text text => exact Text.strip_trimmed text

theorem Datum.Reads.not_unwritable {d : Datum} {text : String} (reads : d.Reads text) :
    ¬ d.Unwritable := by
  cases reads <;> exact not_unwritable_of_parts rfl (by simp)

theorem Datum.ReadsFields.unique {d : Datum} {fields others : List (String × Datum)}
    (first : d.ReadsFields fields) (second : d.ReadsFields others) : fields = others := by
  cases first <;> cases second <;> rfl

/-- An attribute has no text with something in it. -/
def Silent (fields : List (String × Datum)) (name : String) : Prop :=
  ∀ text, field? name fields = some (.text text) → Text.strip text = ""

/-- The first of some attributes that is not silent has this text. -/
inductive FirstText (fields : List (String × Datum)) : List String → String → Prop
  | here {name : String} {names : List String} {text : String} :
      field? name fields = some (.text text) → Text.strip text ≠ "" →
      FirstText fields (name :: names) (Text.strip text)
  | later {name : String} {names : List String} {text : String} :
      Silent fields name → FirstText fields names text → FirstText fields (name :: names) text

/-- A text is given by a field, or if that one is empty, by attributes. -/
def GivenBy (field : String) (names : List String) (fields : List (String × Datum))
    (text : String) : Prop :=
  field ≠ "" ∧ text = field ∨ field = "" ∧ FirstText fields names text

theorem textAttribute?_cons_of_silent {fields : List (String × Datum)} {name : String}
    (silent : Silent fields name) (names : List String) :
    textAttribute? (name :: names) fields = textAttribute? names fields := by
  rw [textAttribute?, List.findSome?_cons]
  split
  · rename_i text read
    split at read
    · rename_i value found
      simp [silent value found] at read
    · cases read
  · rfl

theorem textAttribute?_cons_of_text {fields : List (String × Datum)} {name text : String}
    (found : field? name fields = some (.text text)) (spoken : Text.strip text ≠ "")
    (names : List String) :
    textAttribute? (name :: names) fields = some (Text.strip text) := by
  simp only [textAttribute?, List.findSome?_cons, found, if_neg spoken]

theorem textAttribute?_eq_some_iff {fields : List (String × Datum)} {names : List String}
    {text : String} : textAttribute? names fields = some text ↔ FirstText fields names text := by
  induction names with
  | nil =>
    constructor
    · rintro ⟨⟩
    · rintro ⟨⟩
  | cons name names ih =>
    by_cases silent : Silent fields name
    · rw [textAttribute?_cons_of_silent silent, ih]
      constructor
      · exact .later silent
      · rintro (⟨found, spoken⟩ | ⟨_, rest⟩)
        · exact absurd (silent _ found) spoken
        · exact rest
    · simp only [Silent, not_forall] at silent
      obtain ⟨value, found, spoken⟩ := silent
      rw [textAttribute?_cons_of_text found spoken]
      constructor
      · rintro ⟨⟩
        exact .here found spoken
      · rintro (⟨found', _⟩ | ⟨silent, _⟩)
        · obtain rfl := Datum.text.inj (Option.some.inj (found.symm.trans found'))
          rfl
        · exact absurd (silent value found) spoken

theorem FirstText.ne_empty {fields : List (String × Datum)} {names : List String} {text : String}
    (first : FirstText fields names text) : text ≠ "" := by
  induction first with
  | here _ spoken => exact spoken
  | later _ _ ih => exact ih

theorem FirstText.trimmed {fields : List (String × Datum)} {names : List String} {text : String}
    (first : FirstText fields names text) : Text.Trimmed text := by
  induction first with
  | here _ _ => exact Text.strip_trimmed _
  | later _ _ ih => exact ih

theorem GivenBy.trimmed {field : String} {names : List String} {fields : List (String × Datum)}
    {text : String} (given : GivenBy field names fields text) (ends : Text.Trimmed field) :
    text ≠ "" ∧ Text.Trimmed text := by
  rcases given with ⟨something, rfl⟩ | ⟨-, first⟩
  · exact ⟨something, ends⟩
  · exact ⟨first.ne_empty, first.trimmed⟩

/-- A complaint that some part of a record is a value of the wrong kind. -/
def Defect.OfKind : Defect → Prop
  | .idNotText _ | .attributesNotObject | .notText _ _ => True
  | _ => False

namespace Record

theorem givenBy_iff {field : String} {names : List String} {fields : List (String × Datum)}
    {text : String} : GivenBy field names fields text ↔
      orElse field (textAttribute? names fields) = text ∧ text ≠ "" := by
  rw [GivenBy, orElse]
  by_cases empty : field = ""
  · rw [if_pos empty, ← textAttribute?_eq_some_iff]
    simp only [ne_eq, empty, not_true_eq_false, false_and, true_and, false_or]
    constructor
    · intro found
      exact ⟨by rw [found, Option.getD_some], (textAttribute?_eq_some_iff.mp found).ne_empty⟩
    · rintro ⟨same, something⟩
      cases found : textAttribute? names fields with
      | none => exact absurd (by rw [← same, found, Option.getD_none]) something
      | some other => rw [← same, found, Option.getD_some]
  · rw [if_neg empty]
    simp only [ne_eq, empty, not_false_eq_true, true_and, false_and, or_false]
    constructor
    · rintro rfl
      exact ⟨rfl, empty⟩
    · rintro ⟨rfl, _⟩
      rfl

/-- The fields of a record are read: an identifier with something in it, attributes, and three texts
that may be empty. -/
structure Reads (r : Record) (id : String) (attributes : List (String × Datum))
    (schema issuer subject : String) : Prop where
  called : r.id.Reads id
  called_ne : id ≠ ""
  attributes : r.attributes.ReadsFields attributes
  schema : r.schema.Reads schema
  issuer : r.issuer.Reads issuer
  subject : r.subject.Reads subject

/-- No part of a record is a value of the wrong kind. -/
structure Readable (r : Record) : Prop where
  called : ∃ text, r.id.Reads text
  attributes : ∃ fields, r.attributes.ReadsFields fields
  schema : ∃ text, r.schema.Reads text
  issuer : ∃ text, r.issuer.Reads text
  subject : ∃ text, r.subject.Reads text

theorem Reads.readable {r : Record} {id : String} {attributes : List (String × Datum)}
    {schema issuer subject : String} (reads : r.Reads id attributes schema issuer subject) :
    r.Readable :=
  ⟨⟨_, reads.called⟩, ⟨_, reads.attributes⟩, ⟨_, reads.schema⟩, ⟨_, reads.issuer⟩,
    ⟨_, reads.subject⟩⟩

/-- What a record goes by: its identifier as far as that is known. -/
def calledBy (r : Record) : Except Unwritten String :=
  match r.id with
  | .null => .ok ""
  | .text text => .ok (Text.strip text)
  | other => other.display

theorem calledBy_of_reads {r : Record} {id : String} (reads : r.id.Reads id) :
    r.calledBy = .ok id := by
  rw [calledBy]
  generalize r.id = d at reads
  cases reads <;> rfl

theorem calledBy_of_not_reads {r : Record} (none : ∀ text, ¬ r.id.Reads text) :
    r.calledBy = r.id.display := by
  rw [calledBy]
  generalize r.id = d at none
  cases d with
  | null => exact absurd .missing (none "")
  | text text => exact absurd (.text text) (none _)
  | _ => rfl

theorem calledBy_eq_error_iff {r : Record} {cause : Unwritten} :
    r.calledBy = .error cause ↔ r.id.display = .error cause := by
  by_cases reads : ∃ text, r.id.Reads text
  · obtain ⟨text, reads⟩ := reads
    rw [calledBy_of_reads reads]
    refine iff_of_false (by rintro ⟨⟩) fun failed => reads.not_unwritable ?_
    exact Datum.exists_display_eq_error_iff.mp ⟨cause, failed⟩
  · rw [calledBy_of_not_reads (not_exists.mp reads)]

/-- The parties of a record whose fields have been read. -/
def parties (id : String) (attributes : List (String × Datum)) (schema issuer subject : String) :
    Except Undecoded Resolved :=
  let kind := Kind.ofSchema schema
  let issuer := orElse issuer (textAttribute? ["issuer"] attributes)
  let subject := orElse subject (textAttribute? ["i", "subject", "recipient"] attributes)
  let subject := if kind = .selfClaim ∧ subject = "" then issuer else subject
  if issuer = "" then .error (.malformed ⟨id, .noIssuer⟩)
  else if subject = "" then .error (.malformed ⟨id, .noSubject⟩)
  else .ok ⟨id, kind, issuer, subject, attributes⟩

/-- An identifier that is no text is displayed for the complaint about it, as far as that works. -/
theorem idText_of_not_reads {r : Record} (none : ∀ text, ¬ r.id.Reads text) :
    (∃ name, r.calledBy = .ok name ∧
        r.idText = .error (.malformed ⟨name, .idNotText r.id.kindName⟩)) ∨
      ∃ cause, r.calledBy = .error cause ∧ r.idText = .error (.unwritten cause) := by
  rw [calledBy, idText]
  generalize r.id = d at none
  cases d with
  | null => exact absurd .missing (none "")
  | text text => exact absurd (.text text) (none _)
  | _ =>
    dsimp only
    generalize Datum.display _ = shown
    cases shown with
    | ok name => exact Or.inl ⟨name, rfl, rfl⟩
    | error cause => exact Or.inr ⟨cause, rfl, rfl⟩

theorem idText_cases (r : Record) :
    (∃ text, r.id.Reads text ∧ text ≠ "" ∧ r.idText = .ok text) ∨
      (r.id.Reads "" ∧ r.idText = .error (.malformed ⟨"", .noId⟩)) ∨ ∀ text, ¬ r.id.Reads text := by
  unfold idText
  cases r.id with
  | null => exact Or.inr (Or.inl ⟨.missing, rfl⟩)
  | text text =>
    have read := Datum.Reads.text text
    by_cases blank : Text.strip text = ""
    · rw [blank] at read
      exact Or.inr (Or.inl ⟨read, if_pos blank⟩)
    · exact Or.inl ⟨_, read, blank, if_neg blank⟩
  | _ => exact Or.inr (Or.inr (by rintro _ ⟨⟩))

theorem attributeFields_cases (r : Record) (id : String) :
    (∃ fields, r.attributes.ReadsFields fields ∧ r.attributeFields id = .ok fields) ∨
      (∀ fields, ¬ r.attributes.ReadsFields fields) ∧
        r.attributeFields id = .error (.malformed ⟨id, .attributesNotObject⟩) := by
  unfold attributeFields
  cases r.attributes with
  | null => exact Or.inl ⟨_, .missing, rfl⟩
  | record fields => exact Or.inl ⟨_, .record fields, rfl⟩
  | _ => exact Or.inr ⟨by rintro _ ⟨⟩, rfl⟩

theorem textField_cases (id : String) (label : Label) (d : Datum) :
    (∃ text, d.Reads text ∧ textField id label d = .ok text) ∨
      (∀ text, ¬ d.Reads text) ∧
        textField id label d = .error (.malformed ⟨id, .notText label d.kindName⟩) := by
  cases d with
  | null => exact Or.inl ⟨_, .missing, rfl⟩
  | text text => exact Or.inl ⟨_, .text text, rfl⟩
  | _ => exact Or.inr ⟨by rintro _ ⟨⟩, rfl⟩

/-- All that looking for the parties of a record can come to: they are looked for in fields that are
read, or the record has no name, or some part of it is of the wrong kind, or what stands in the place
of its identifier cannot be displayed. -/
theorem resolve_cases (r : Record) :
    (∃ id attributes schema issuer subject, r.Reads id attributes schema issuer subject ∧
        r.resolve = parties id attributes schema issuer subject) ∨
      (r.id.Reads "" ∧ r.resolve = .error (.malformed ⟨"", .noId⟩)) ∨
      (¬ r.Readable ∧ ∃ (name : String) (defect : Defect), r.calledBy = .ok name ∧ defect.OfKind ∧
        r.resolve = .error (.malformed ⟨name, defect⟩)) ∨
      ¬ r.Readable ∧ ∃ cause, r.calledBy = .error cause ∧
        r.resolve = .error (.unwritten cause) := by
  -- The parts are read one after the other, and the first one of a wrong kind ends it.
  rcases r.idText_cases with ⟨id, reads, something, called⟩ | ⟨nameless, broken⟩ | none
  case inr.inl => exact Or.inr (Or.inl ⟨nameless, by rw [resolve, broken]; rfl⟩)
  case inr.inr =>
    have unreadable : ¬ r.Readable := fun readable => not_exists.mpr none readable.called
    rcases idText_of_not_reads none with ⟨name, named, broken⟩ | ⟨cause, unnamed, broken⟩
    · refine Or.inr (Or.inr (Or.inl ⟨unreadable, name, .idNotText r.id.kindName, named, trivial, ?_⟩))
      rw [resolve, broken]
      rfl
    · refine Or.inr (Or.inr (Or.inr ⟨unreadable, cause, unnamed, ?_⟩))
      rw [resolve, broken]
      rfl
  -- From here on complaints call the record by the text of its identifier.
  have named : r.calledBy = .ok id := calledBy_of_reads reads
  rcases r.attributeFields_cases id with ⟨fields, object, attributes⟩ | ⟨none, broken⟩
  case inr =>
    refine Or.inr (Or.inr (Or.inl ⟨fun readable => not_exists.mpr none readable.attributes,
      id, .attributesNotObject, named, trivial, ?_⟩))
    simp only [resolve, called, broken, bind, Except.bind]
  rcases textField_cases id .schema r.schema with ⟨schema, first, schemas⟩ | ⟨none, broken⟩
  case inr =>
    refine Or.inr (Or.inr (Or.inl ⟨fun readable => not_exists.mpr none readable.schema,
      id, .notText .schema r.schema.kindName, named, trivial, ?_⟩))
    simp only [resolve, called, attributes, broken, bind, Except.bind]
  rcases textField_cases id .issuer r.issuer with ⟨issuer, second, issuers⟩ | ⟨none, broken⟩
  case inr =>
    refine Or.inr (Or.inr (Or.inl ⟨fun readable => not_exists.mpr none readable.issuer,
      id, .notText .issuer r.issuer.kindName, named, trivial, ?_⟩))
    simp only [resolve, called, attributes, schemas, broken, bind, Except.bind]
  rcases textField_cases id .subject r.subject with ⟨subject, third, subjects⟩ | ⟨none, broken⟩
  case inr =>
    refine Or.inr (Or.inr (Or.inl ⟨fun readable => not_exists.mpr none readable.subject,
      id, .notText .subject r.subject.kindName, named, trivial, ?_⟩))
    simp only [resolve, called, attributes, schemas, issuers, broken, bind, Except.bind]
  refine Or.inl ⟨_, _, _, _, _, ⟨reads, something, object, first, second, third⟩, ?_⟩
  simp only [resolve, called, attributes, schemas, issuers, subjects, bind, Except.bind]
  rfl

/-- A record states who says something about whom: a schema decides on the kind, the parties are
given by fields or attributes, and a claim without a subject is about its issuer. -/
structure States (r : Record) (found : Resolved) : Prop where
  called : r.id.Reads found.id
  called_ne : found.id ≠ ""
  attributes : r.attributes.ReadsFields found.attributes
  kind : ∃ schema, r.schema.Reads schema ∧ Kind.ofSchema schema = found.kind
  issuer : ∃ field, r.issuer.Reads field ∧
    GivenBy field ["issuer"] found.attributes found.issuer
  subject : ∃ field, r.subject.Reads field ∧
    (GivenBy field ["i", "subject", "recipient"] found.attributes found.subject ∨
      (∀ text, ¬ GivenBy field ["i", "subject", "recipient"] found.attributes text) ∧
        found.kind = .selfClaim ∧ found.subject = found.issuer)

theorem States.readable {r : Record} {found : Resolved} (states : r.States found) : r.Readable := by
  obtain ⟨called, -, object, ⟨_, schema, -⟩, ⟨_, issuer, -⟩, ⟨_, subject, -⟩⟩ := states
  exact ⟨⟨_, called⟩, ⟨_, object⟩, ⟨_, schema⟩, ⟨_, issuer⟩, ⟨_, subject⟩⟩

theorem not_givenBy_iff {field : String} {names : List String} {fields : List (String × Datum)} :
    (∀ text, ¬ GivenBy field names fields text) ↔
      orElse field (textAttribute? names fields) = "" := by
  simp only [givenBy_iff, not_and, not_not, forall_eq']

/-- Parties are found just if an issuer and a subject are given. The issuer stands in for a subject
that is missing in a claim about oneself. -/
theorem parties_eq_ok_iff {id schema issuer subject : String} {attributes : List (String × Datum)}
    {found : Resolved} :
    parties id attributes schema issuer subject = .ok found ↔
      found.id = id ∧ found.attributes = attributes ∧ Kind.ofSchema schema = found.kind ∧
        GivenBy issuer ["issuer"] attributes found.issuer ∧
        (GivenBy subject ["i", "subject", "recipient"] attributes found.subject ∨
          (∀ text, ¬ GivenBy subject ["i", "subject", "recipient"] attributes text) ∧
            found.kind = .selfClaim ∧ found.subject = found.issuer) := by
  obtain ⟨called, kind, giver, taker, others⟩ := found
  rw [not_givenBy_iff, givenBy_iff, givenBy_iff, parties]
  generalize orElse issuer (textAttribute? ["issuer"] attributes) = first
  generalize orElse subject (textAttribute? ["i", "subject", "recipient"] attributes) = second
  by_cases nobody : first = ""
  · rw [if_pos nobody]
    simp only [reduceCtorEq, false_iff]
    rintro ⟨-, -, -, ⟨rfl, something⟩, -⟩
    exact something nobody
  rw [if_neg nobody]
  by_cases missing : second = ""
  · by_cases itself : Kind.ofSchema schema = .selfClaim
    · simp only [missing, itself, true_and, and_self, if_true, if_neg nobody, Except.ok.injEq,
        Resolved.mk.injEq]
      grind
    · simp only [missing, itself, and_true, if_false, if_true, reduceCtorEq, false_iff]
      grind
  · simp only [missing, and_false, if_false, Except.ok.injEq, Resolved.mk.injEq, false_and,
      or_false]
    grind

theorem resolve_eq_ok_iff {r : Record} {found : Resolved} :
    r.resolve = .ok found ↔ r.States found := by
  rcases r.resolve_cases with ⟨id, attributes, schema, issuer, subject, reads, same⟩ |
    ⟨nameless, broken⟩ | ⟨none, _, _, -, -, broken⟩ | ⟨none, _, -, broken⟩
  · rw [same, parties_eq_ok_iff]
    constructor
    · rintro ⟨rfl, rfl, kind, giver, taker⟩
      exact ⟨reads.called, reads.called_ne, reads.attributes, ⟨schema, reads.schema, kind⟩,
        ⟨issuer, reads.issuer, giver⟩, ⟨subject, reads.subject, taker⟩⟩
    · rintro ⟨called, -, object, ⟨_, schemas, kind⟩, ⟨_, issuers, giver⟩, ⟨_, subjects, taker⟩⟩
      obtain rfl := reads.attributes.unique object
      obtain rfl := reads.schema.unique schemas
      obtain rfl := reads.issuer.unique issuers
      obtain rfl := reads.subject.unique subjects
      exact ⟨called.unique reads.called, rfl, kind, giver, taker⟩
  · rw [broken]
    simp only [reduceCtorEq, false_iff]
    exact fun states => states.called_ne (states.called.unique nameless)
  · rw [broken]
    exact iff_of_false (by rintro ⟨⟩) fun states => none states.readable
  · rw [broken]
    exact iff_of_false (by rintro ⟨⟩) fun states => none states.readable

theorem parties_error {id schema issuer subject : String} {attributes : List (String × Datum)}
    {cause : Undecoded} (broken : parties id attributes schema issuer subject = .error cause) :
    cause = .malformed ⟨id, .noIssuer⟩ ∨ cause = .malformed ⟨id, .noSubject⟩ := by
  simp only [parties] at broken
  split_ifs at broken
  · exact Or.inl (Except.error.inj broken).symm
  · exact Or.inr (Except.error.inj broken).symm

/-- Whatever a record is complained about for, it goes by its own identifier. Only where that one
cannot be displayed, there is no complaint but an interruption. -/
theorem resolve_error {r : Record} {cause : Undecoded} (broken : r.resolve = .error cause) :
    (∃ m, cause = .malformed m ∧ r.calledBy = .ok m.id) ∨
      ∃ reason, cause = .unwritten reason ∧ r.calledBy = .error reason := by
  rcases r.resolve_cases with ⟨id, attributes, schema, issuer, subject, reads, same⟩ |
    ⟨nameless, same⟩ | ⟨-, name, defect, named, -, same⟩ | ⟨-, reason, unnamed, same⟩ <;>
    rw [same] at broken
  · have named : r.calledBy = .ok id := calledBy_of_reads reads.called
    rcases parties_error broken with rfl | rfl <;> exact Or.inl ⟨_, rfl, named⟩
  · cases broken
    exact Or.inl ⟨_, rfl, calledBy_of_reads nameless⟩
  · cases broken
    exact Or.inl ⟨_, rfl, named⟩
  · cases broken
    exact Or.inr ⟨_, rfl, unnamed⟩

theorem States.trimmed {r : Record} {found : Resolved} (states : r.States found) :
    ∀ text ∈ [found.id, found.issuer, found.subject], text ≠ "" ∧ Text.Trimmed text := by
  obtain ⟨field, reads, giver⟩ := states.issuer
  have issuer := giver.trimmed reads.trimmed
  obtain ⟨field', reads', taker⟩ := states.subject
  have subject : found.subject ≠ "" ∧ Text.Trimmed found.subject := by
    rcases taker with given | ⟨-, -, itself⟩
    · exact given.trimmed reads'.trimmed
    · rw [itself]
      exact issuer
  simp only [List.forall_mem_cons, List.not_mem_nil, false_implies, implies_true, and_true]
  exact ⟨⟨states.called_ne, states.called.trimmed⟩, issuer, subject⟩

/-- None of the values that are looked at for the time of issue is a point outside of the
calendar. -/
def InRange (r : Record) : Prop :=
  ∀ attributes, r.attributes.ReadsFields attributes →
    ∀ d ∈ r.times attributes, ∀ t, d.Gives t → ¬ t.Outside

theorem inRange_of_timeless {r : Record} (timeless : ∀ attributes,
    r.attributes.ReadsFields attributes → ∀ d ∈ r.times attributes, d = .null) : r.InRange := by
  intro attributes reads d looked t given
  simp [timeless attributes reads d looked, Datum.Gives] at given

theorem InRange.first?_isOk {r : Record} (inRange : r.InRange) {found : Resolved}
    (states : r.States found) :
    ∃ issuedAt, Sighting.first? (r.sightings found.attributes) = .ok issuedAt := by
  cases search : Sighting.first? (r.sightings found.attributes) with
  | ok issuedAt => exact ⟨issuedAt, rfl⟩
  | error cause =>
    obtain ⟨before, d, after, times, -, t, given, outside⟩ := first?_sightings_iff.mp search
    have looked : d ∈ r.times found.attributes := by simp [times]
    exact absurd outside (inRange _ states.attributes d looked t given)

/-- A record yields a credential: identifier, parties and kind are those that it states, and the
identifiers are no longer surrounded by blanks. -/
structure Yields (r : Record) (c : Credential) : Prop where
  stated : ∃ found, r.States found ∧ c.id = found.id ∧ c.issuer = found.issuer ∧
    c.subject = found.subject ∧ c.kind = found.kind
  trimmed : ∀ text ∈ [c.id, c.issuer, c.subject], text ≠ "" ∧ Text.Trimmed text

theorem content_kind (r : Record) (found : Resolved) : (r.content found).kind = found.kind := by
  rw [content]
  cases found.kind <;> rfl

theorem States.yields {r : Record} {found : Resolved} (states : r.States found)
    (issuedAt : Option Reading) : r.Yields (r.credential found issuedAt) :=
  ⟨⟨found, states, rfl, rfl, rfl, r.content_kind found⟩, states.trimmed⟩

theorem decode_yields {r : Record} {c : Credential} (decoded : r.decode = .ok c) : r.Yields c := by
  unfold decode at decoded
  split at decoded
  · cases decoded
  rename_i found resolved
  split at decoded
  · cases decoded
  · cases decoded
    exact (resolve_eq_ok_iff.mp resolved).yields _

/-- A record from which a credential can be made: it has an identifier and states who says something
about whom. -/
def WellFormed (r : Record) : Prop := ∃ found, r.States found

theorem decode_of_resolve_error {r : Record} {cause : Undecoded} (broken : r.resolve = .error cause) :
    r.decode = .error cause := by
  rw [decode, broken]

theorem resolve_of_decode_error {r : Record} {cause : Undecoded} (broken : r.decode = .error cause)
    (inside : ∀ place, cause ≠ .interrupted (.outside place)) : r.resolve = .error cause := by
  cases resolved : r.resolve with
  | error other =>
    cases (decode_of_resolve_error resolved).symm.trans broken
    rfl
  | ok found =>
    rw [decode, resolved] at broken
    dsimp only at broken
    split at broken
    · exact absurd (Except.error.inj broken).symm (inside _)
    · cases broken

theorem decode_eq_malformed_iff {r : Record} {m : Malformed} :
    r.decode = .error (.malformed m) ↔ r.resolve = .error (.malformed m) :=
  ⟨fun broken => resolve_of_decode_error broken (by simp), decode_of_resolve_error⟩

/-- Looking for the parties is interrupted just if what stands in the place of the identifier cannot
be displayed. -/
theorem resolve_eq_unwritten_iff {r : Record} {cause : Unwritten} :
    r.resolve = .error (.unwritten cause) ↔ r.id.display = .error cause := by
  rw [← calledBy_eq_error_iff]
  constructor
  · intro broken
    obtain ⟨_, ⟨⟩, _⟩ | ⟨_, ⟨⟩, unnamed⟩ := resolve_error broken
    exact unnamed
  · intro unnamed
    rcases r.resolve_cases with ⟨id, _, _, _, _, reads, -⟩ | ⟨nameless, -⟩ | ⟨-, _, _, named, -⟩ |
      ⟨-, reason, unnamed', broken⟩
    · cases unnamed.symm.trans (calledBy_of_reads reads.called)
    · cases unnamed.symm.trans (calledBy_of_reads nameless)
    · cases unnamed.symm.trans named
    · rw [broken, Except.error.inj (unnamed'.symm.trans unnamed)]

theorem decode_eq_unwritten_iff {r : Record} {cause : Unwritten} :
    r.decode = .error (.unwritten cause) ↔ r.id.display = .error cause := by
  rw [← resolve_eq_unwritten_iff]
  exact ⟨fun broken => resolve_of_decode_error broken (by simp [Undecoded.unwritten]),
    decode_of_resolve_error⟩

theorem WellFormed.not_unwritable {r : Record} (wellFormed : r.WellFormed) : ¬ r.id.Unwritable := by
  obtain ⟨found, states⟩ := wellFormed
  exact states.called.not_unwritable

/-- The records that are not well-formed are complained about, apart from those with a value that
cannot be displayed in the place of their identifier. -/
theorem exists_malformed_iff {r : Record} :
    (∃ m, r.decode = .error (.malformed m)) ↔ ¬ r.WellFormed ∧ ¬ r.id.Unwritable := by
  constructor
  · rintro ⟨m, broken⟩
    have resolved := decode_eq_malformed_iff.mp broken
    refine ⟨fun ⟨found, states⟩ => ?_, fun unwritable => ?_⟩
    · cases resolved.symm.trans (resolve_eq_ok_iff.mpr states)
    · obtain ⟨cause, failed⟩ := Datum.exists_display_eq_error_iff.mpr unwritable
      cases resolved.symm.trans (resolve_eq_unwritten_iff.mpr failed)
  · rintro ⟨unstated, written⟩
    cases resolved : r.resolve with
    | ok found => exact absurd ⟨found, resolve_eq_ok_iff.mp resolved⟩ unstated
    | error cause =>
      rcases resolve_error resolved with ⟨m, rfl, -⟩ | ⟨reason, rfl, unnamed⟩
      · exact ⟨m, decode_of_resolve_error resolved⟩
      · have failed := calledBy_eq_error_iff.mp unnamed
        exact absurd (Datum.exists_display_eq_error_iff.mp ⟨reason, failed⟩) written

/-- Of the records whose times stay in the calendar, just the well-formed ones are decoded. The
others are complained about, each by its own identifier, unless a value that cannot be displayed
stands in the place of that: then displaying it for the complaint interrupts decoding. -/
theorem decode_wellFormed {r : Record} (inRange : r.InRange) :
    ((∃ c, r.decode = .ok c) ↔ r.WellFormed) ∧
      ((∃ m, r.decode = .error (.malformed m)) ↔ ¬ r.WellFormed ∧ ¬ r.id.Unwritable) ∧
      (∀ m, r.decode = .error (.malformed m) → r.calledBy = .ok m.id) ∧
      (r.id.Unwritable →
        ∃ cause, r.id.display = .error cause ∧ r.decode = .error (.unwritten cause)) ∧
      ∀ c, r.decode = .ok c → r.Yields c := by
  refine ⟨⟨?_, ?_⟩, exists_malformed_iff, ?_, ?_, fun c => decode_yields⟩
  · rintro ⟨c, decoded⟩
    obtain ⟨found, states, -⟩ := (decode_yields decoded).stated
    exact ⟨found, states⟩
  · rintro ⟨found, states⟩
    obtain ⟨issuedAt, search⟩ := inRange.first?_isOk states
    refine ⟨r.credential found issuedAt, ?_⟩
    rw [decode, resolve_eq_ok_iff.mpr states]
    simp only [search]
  · intro m broken
    obtain ⟨_, ⟨⟩, named⟩ | ⟨_, ⟨⟩, _⟩ := resolve_error (decode_eq_malformed_iff.mp broken)
    exact named
  · intro unwritable
    obtain ⟨cause, failed⟩ := Datum.exists_display_eq_error_iff.mpr unwritable
    exact ⟨cause, failed, decode_eq_unwritten_iff.mpr failed⟩

/-- A claim whose subject is left out, and whose issuer is an attribute. -/
def signature : Record where
  id := .text " 1\n"
  schema := .text "Self-Claim"
  issuer := .null
  attributes := .record [("issuer", .text "A ")]

theorem signature_inRange : signature.InRange := by
  refine inRange_of_timeless ?_
  rintro attributes ⟨_⟩ d looked
  simpa [times, timeNames, field?, signature] using looked

/-- Blanks do not count, and neither does the case of the schema. -/
theorem decode_wellFormed_signature :
    signature.InRange ∧ signature.WellFormed ∧
      ∃ c, signature.decode = .ok c ∧ signature.Yields c ∧ c.id = "1" ∧ c.issuer = "A" ∧
        c.subject = "A" ∧ c.kind = .selfClaim := by
  obtain ⟨accepted, -, -, -, yields⟩ := decode_wellFormed signature_inRange
  have decoded : signature.decode = .ok ⟨"1", "A", "A", none, none, none, .selfClaim⟩ := by
    decide +kernel
  exact ⟨signature_inRange, accepted.mp ⟨_, decoded⟩, _, decoded, yields _ decoded, rfl, rfl, rfl,
    rfl⟩

/-- A record with a number of one digit too many in the place of its identifier. -/
def tally : Record where
  id := .int Text.digitBound

theorem tally_unwritable : tally.id.Unwritable :=
  Or.inl ⟨0, _, .self _, _, rfl, (Int.natAbs_natCast Text.digitBound).ge⟩

theorem tally_inRange : tally.InRange := by
  refine inRange_of_timeless ?_
  rintro attributes ⟨_⟩ d looked
  have issuedAt : tally.issuedAt = .null := rfl
  simpa [times, timeNames, field?, issuedAt] using looked

/-- A record that is not well-formed need not be complained about. -/
theorem not_decode_wellFormed :
    ¬ ∀ r : Record, r.InRange → ¬ r.WellFormed → ∃ m, r.decode = .error (.malformed m) := by
  intro rejected
  obtain ⟨m, broken⟩ := rejected tally tally_inRange fun wellFormed =>
    wellFormed.not_unwritable tally_unwritable
  obtain ⟨cause, failed⟩ := Datum.exists_display_eq_error_iff.mpr tally_unwritable
  cases broken.symm.trans (decode_eq_unwritten_iff.mpr failed)

end Record

end Vouch
