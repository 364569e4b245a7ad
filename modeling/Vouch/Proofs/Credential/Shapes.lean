import Vouch.Proofs.Credential.WellFormed

namespace Vouch

/-- A value is a text, or it is missing and the text is empty. -/
def Datum.Words (d : Datum) (text : String) : Prop := d = .text text ∨ d = .null ∧ text = ""

theorem Datum.Reads.words {d : Datum} {text : String} (reads : d.Reads text) :
    ∃ raw, d.wording = .ok raw ∧ d.Words raw := by
  cases reads with
  | missing => exact ⟨"", rfl, Or.inr ⟨rfl, rfl⟩⟩
  | text text => exact ⟨text, wording_text text, Or.inl rfl⟩

/-- A function that takes an empty text for nothing does not see whether a value is put into a
text. -/
theorem Datum.Words.apply {α : Type} {f : Datum → α} {d : Datum} {text : String}
    (words : d.Words text) (silent : f (.text "") = f .null) : f (.text text) = f d := by
  rcases words with rfl | ⟨rfl, rfl⟩
  · rfl
  · exact silent

/-- The shapes of an object that holds a record: that of a cache, and that of an exchange between
stores. -/
inductive Shape where
  | cached
  | exchanged

/-- The object that holds a record in a shape. -/
def Shape.object (shape : Shape) (r : Record) : Datum :=
  match shape with
  | cached =>
    .record [("id", r.id), ("issuerAID", r.issuer), ("subjectAID", r.subject),
      ("schemaID", r.schema), ("data", r.attributes), ("issuedAt", r.issuedAt)]
  | exchanged =>
    .record [("said", r.id), ("issuer", r.issuer), ("recipient", r.subject),
      ("schema", r.schema), ("data", r.attributes), ("issuedAt", r.issuedAt)]

namespace Record

theorem firstGiven?_eq_find? (names : List String) (fields : List (String × Datum)) :
    firstGiven? names fields = (names.filterMap (field? · fields)).find? isGiven := by
  rw [firstGiven?]
  induction names with
  | nil => rfl
  | cons name names ih =>
    rw [List.findSome?_cons, ih, List.filterMap_cons]
    cases field? name fields with
    | none => rfl
    | some d =>
      rw [Option.filter_some, List.find?_cons]
      cases isGiven d <;> rfl

theorem wording_of_not_isGiven {d : Datum} (silent : isGiven d = false) : d.wording = .ok "" := by
  cases d with
  | null => rfl
  | text text =>
    obtain rfl : text = "" := by simpa [isGiven] using silent
    rfl
  | _ => cases silent

theorem displayed_of_alone {names : List String} {fields : List (String × Datum)} {d : Datum}
    (alone : names.filterMap (field? · fields) = [d]) : displayed names fields = d.wording := by
  rw [displayed, firstGiven?_eq_find?, alone, List.find?_singleton]
  cases given : isGiven d with
  | false => exact (wording_of_not_isGiven given).symm
  | true => rfl

/-- A record with texts in the place of all of its fields but attributes and time, and no time that
says nothing. -/
def inTexts (r : Record) (id schema issuer subject : String) : Record where
  id := .text id
  schema := .text schema
  issuer := .text issuer
  subject := .text subject
  attributes := r.attributes
  issuedAt := if isGiven r.issuedAt then r.issuedAt else .null

/-- A record put into texts, as far as its fields have some. -/
def worded (r : Record) : Except Unwritten Record := do
  let id ← r.id.wording
  let schema ← r.schema.wording
  let issuer ← r.issuer.wording
  let subject ← r.subject.wording
  return r.inTexts id schema issuer subject

theorem worded_eq_ok_iff {r w : Record} :
    r.worded = .ok w ↔ ∃ id schema issuer subject, r.id.wording = .ok id ∧
      r.schema.wording = .ok schema ∧ r.issuer.wording = .ok issuer ∧
      r.subject.wording = .ok subject ∧ r.inTexts id schema issuer subject = w := by
  simp only [worded, bind_eq_ok_iff]
  constructor
  · rintro ⟨id, first, schema, second, issuer, third, subject, fourth, same⟩
    exact ⟨id, schema, issuer, subject, first, second, third, fourth, Except.ok.inj same⟩
  · rintro ⟨id, schema, issuer, subject, first, second, third, fourth, rfl⟩
    exact ⟨id, first, schema, second, issuer, third, subject, fourth, rfl⟩

/-- A record cannot be put into texts just if one of four fields cannot be displayed. -/
theorem exists_worded_eq_error_iff {r : Record} :
    (∃ cause, r.worded = .error cause) ↔ r.id.Unwritable ∨ r.schema.Unwritable ∨
      r.issuer.Unwritable ∨ r.subject.Unwritable := by
  simp only [← Datum.exists_display_eq_error_iff, ← Datum.wording_eq_error_iff, exists_eq_error_iff,
    worded_eq_ok_iff, ← not_and_or]
  refine not_congr ⟨?_, ?_⟩
  · rintro ⟨w, id, schema, issuer, subject, first, second, third, fourth, -⟩
    exact ⟨⟨id, first⟩, ⟨schema, second⟩, ⟨issuer, third⟩, ⟨subject, fourth⟩⟩
  · rintro ⟨⟨id, first⟩, ⟨schema, second⟩, ⟨issuer, third⟩, ⟨subject, fourth⟩⟩
    exact ⟨_, id, schema, issuer, subject, first, second, third, fourth, rfl⟩

theorem ofFields_of_alone {fields : List (String × Datum)} {r : Record}
    {attributes : List (String × Datum)} (object : r.attributes = .record attributes)
    (id : ["id", "said", "d"].filterMap (field? · fields) = [r.id])
    (schema : ["schemaID", "schema", "s"].filterMap (field? · fields) = [r.schema])
    (issuer : ["issuerAID", "issuer", "i"].filterMap (field? · fields) = [r.issuer])
    (subject : ["subjectAID", "recipient", "subject"].filterMap (field? · fields) = [r.subject])
    (data : ["data", "attributes", "a"].filterMap (field? · fields) = [r.attributes])
    (time : ["issuedAt", "issuanceDate"].filterMap (field? · fields) = [r.issuedAt]) :
    ofFields fields = r.worded := by
  have block : (firstGiven? ["data", "attributes", "a"] fields).getD (.record []) =
      r.attributes := by
    rw [firstGiven?_eq_find?, data, object]
    rfl
  have moment : (firstGiven? ["issuedAt", "issuanceDate"] fields).getD .null =
      if isGiven r.issuedAt then r.issuedAt else .null := by
    rw [firstGiven?_eq_find?, time, List.find?_singleton]
    cases isGiven r.issuedAt <;> rfl
  simp only [ofFields, worded, inTexts, displayed_of_alone id, displayed_of_alone schema,
    displayed_of_alone issuer, displayed_of_alone subject, block, moment]

/-- Either object is taken for the record that it holds, put into texts. -/
theorem toRecord_object (shape : Shape) {r : Record} {attributes : List (String × Datum)}
    (object : r.attributes = .record attributes) :
    (Item.raw (shape.object r)).toRecord = r.worded.mapError .unwritten := by
  cases shape <;>
    exact congrArg (Except.mapError Undecoded.unwritten)
      (ofFields_of_alone object rfl rfl rfl rfl rfl rfl)

theorem decode_object (shape : Shape) {r : Record} {attributes : List (String × Datum)}
    (object : r.attributes = .record attributes) :
    (∃ cause, r.worded = .error cause ∧
        (Item.raw (shape.object r)).decode = .error (.unwritten cause)) ∨
      ∃ w, r.worded = .ok w ∧ (Item.raw (shape.object r)).decode = w.decode := by
  rw [Item.decode, toRecord_object shape object]
  cases r.worded with
  | error cause => exact Or.inl ⟨cause, rfl, rfl⟩
  | ok w => exact Or.inr ⟨w, rfl, rfl⟩

theorem inTexts_readable {r : Record} {attributes : List (String × Datum)}
    (object : r.attributes = .record attributes) (id schema issuer subject : String) :
    (r.inTexts id schema issuer subject).Readable where
  called := ⟨_, .text id⟩
  attributes := ⟨attributes, by rw [inTexts, object]; exact .record attributes⟩
  schema := ⟨_, .text schema⟩
  issuer := ⟨_, .text issuer⟩
  subject := ⟨_, .text subject⟩

/-- If the parts of a record are of the right kinds, a complaint about it is not about any kind. -/
theorem Readable.not_ofKind {r : Record} (readable : r.Readable) {m : Malformed}
    (broken : r.resolve = .error (.malformed m)) : ¬ m.defect.OfKind := by
  rcases r.resolve_cases with ⟨id, attributes, schema, issuer, subject, -, same⟩ | ⟨-, same⟩ |
    ⟨unreadable, -⟩ | ⟨unreadable, -⟩
  · rw [same] at broken
    obtain ⟨⟨⟩⟩ | ⟨⟨⟩⟩ := parties_error broken <;> exact not_false
  · rw [same] at broken
    cases broken
    exact not_false
  · exact absurd readable unreadable
  · exact absurd readable unreadable

theorem sightings_inTexts (r : Record) (id schema issuer subject : String)
    (attributes : List (String × Datum)) :
    (r.inTexts id schema issuer subject).sightings attributes = r.sightings attributes := by
  have time : Sighting.ofDatum (if isGiven r.issuedAt then r.issuedAt else .null) =
      Sighting.ofDatum r.issuedAt := by
    cases given : isGiven r.issuedAt with
    | true => rw [if_pos rfl]
    | false =>
      have silent : r.issuedAt = .null ∨ r.issuedAt = .text "" := by
        generalize r.issuedAt = d at given
        cases d <;> simp_all [isGiven]
      rcases silent with silent | silent <;> rw [silent] <;> rfl
  rw [sightings, sightings, inTexts, time]

section Words

variable {r : Record} {id schema issuer subject : String} (called : r.id.Words id)
  (schemas : r.schema.Words schema) (issuers : r.issuer.Words issuer)
  (subjects : r.subject.Words subject)

include called schemas issuers subjects

theorem resolve_inTexts : (r.inTexts id schema issuer subject).resolve = r.resolve := by
  let w := r.inTexts id schema issuer subject
  have name : w.idText = r.idText := called.apply (f := fun d => idText { r with id := d }) rfl
  have fields (text : String) : w.attributeFields text = r.attributeFields text := rfl
  have first (text : String) : textField text .schema w.schema = textField text .schema r.schema :=
    schemas.apply rfl
  have second (text : String) : textField text .issuer w.issuer = textField text .issuer r.issuer :=
    issuers.apply rfl
  have third (text : String) :
      textField text .subject w.subject = textField text .subject r.subject := subjects.apply rfl
  simp only [resolve, name, fields, first, second, third, w]

theorem decode_inTexts : (r.inTexts id schema issuer subject).decode = r.decode := by
  have text : (r.inTexts id schema issuer subject).schemaText = r.schemaText :=
    schemas.apply (f := fun d => schemaText { r with schema := d }) rfl
  simp only [decode, resolve_inTexts called schemas issuers subjects, sightings_inTexts, credential,
    content, text]

end Words

/-- A record whose parts are of the right kinds can be put into texts, and is decoded alike. -/
theorem Readable.exists_worded {r : Record} (readable : r.Readable) :
    ∃ w, r.worded = .ok w ∧ w.decode = r.decode := by
  obtain ⟨⟨_, called⟩, -, ⟨_, schema⟩, ⟨_, issuer⟩, ⟨_, subject⟩⟩ := readable
  obtain ⟨id, first, called⟩ := called.words
  obtain ⟨_, second, schemas⟩ := schema.words
  obtain ⟨_, third, issuers⟩ := issuer.words
  obtain ⟨_, fourth, subjects⟩ := subject.words
  exact ⟨_, worded_eq_ok_iff.mpr ⟨_, _, _, _, first, second, third, fourth, rfl⟩,
    decode_inTexts called schemas issuers subjects⟩

theorem decode_of_nameless {r : Record} (nameless : r.id.Reads "") :
    r.decode = .error (.malformed ⟨"", .noId⟩) := by
  rcases r.idText_cases with ⟨text, reads, something, -⟩ | ⟨-, broken⟩ | none
  · exact absurd (reads.unique nameless) something
  · refine decode_of_resolve_error ?_
    rw [resolve, broken]
    rfl
  · exact absurd nameless (none "")

theorem worded_nameless {r w : Record} (nameless : r.id.Reads "") (same : r.worded = .ok w) :
    w.id.Reads "" := by
  obtain ⟨id, _, _, _, wording, -, -, -, rfl⟩ := worded_eq_ok_iff.mp same
  obtain ⟨raw, wording', words⟩ := nameless.words
  obtain rfl := Except.ok.inj (wording.symm.trans wording')
  rcases words with words | ⟨-, rfl⟩
  · rwa [words] at nameless
  · exact .text ""

/-- If a record has a name and some part of it is of the wrong kind, then it is not decoded as it is
when put into texts. -/
theorem decode_worded_ne {r w : Record} {attributes : List (String × Datum)}
    (object : r.attributes = .record attributes) (named : ¬ r.id.Reads "")
    (unreadable : ¬ r.Readable) (written : ¬ r.id.Unwritable) (same : r.worded = .ok w) :
    w.decode ≠ r.decode := by
  obtain ⟨id, schema, issuer, subject, -, -, -, -, rfl⟩ := worded_eq_ok_iff.mp same
  rcases r.resolve_cases with ⟨_, _, _, _, _, reads, -⟩ | ⟨nameless, -⟩ |
    ⟨-, name, defect, -, kind, broken⟩ | ⟨-, cause, unnamed, -⟩
  · exact absurd reads.readable unreadable
  · exact absurd nameless named
  · -- Of texts nobody can complain that they are of the wrong kind.
    intro same
    rw [decode_eq_malformed_iff.mpr broken, decode_eq_malformed_iff] at same
    exact (inTexts_readable object id schema issuer subject).not_ofKind same kind
  · exact absurd (Datum.exists_display_eq_error_iff.mp ⟨cause, calledBy_eq_error_iff.mp unnamed⟩)
      written

theorem worded_written {r w : Record} (same : r.worded = .ok w) : ¬ w.id.Unwritable := by
  obtain ⟨id, _, _, _, -, -, -, -, rfl⟩ := worded_eq_ok_iff.mp same
  exact (Datum.Reads.text id).not_unwritable

/-- The identifier is displayed before all else, both for a complaint about it and for an object. -/
theorem worded_of_unwritable {r : Record} (unwritable : r.id.Unwritable) :
    ∃ cause, r.worded = .error cause ∧ r.decode = .error (.unwritten cause) := by
  obtain ⟨cause, failed⟩ := Datum.exists_display_eq_error_iff.mpr unwritable
  refine ⟨cause, ?_, decode_eq_unwritten_iff.mpr failed⟩
  rw [worded, Datum.wording_eq_error_iff.mpr failed]
  rfl

/-- A record is decoded as it is when put into texts, if the two can be compared. -/
theorem decode_worded_eq_iff {r w : Record} {attributes : List (String × Datum)}
    (object : r.attributes = .record attributes) (same : r.worded = .ok w) :
    w.decode = r.decode ↔ r.Readable ∨ r.id.Reads "" := by
  have written : ¬ r.id.Unwritable := fun unwritable => by
    obtain ⟨cause, failed, -⟩ := worded_of_unwritable unwritable
    cases same.symm.trans failed
  constructor
  · intro equal
    by_contra neither
    obtain ⟨unreadable, named⟩ := not_or.mp neither
    exact decode_worded_ne object named unreadable written same equal
  · rintro (readable | nameless)
    · obtain ⟨w', same', decoded⟩ := readable.exists_worded
      rwa [Except.ok.inj (same.symm.trans same')]
    · rw [decode_of_nameless nameless, decode_of_nameless (worded_nameless nameless same)]

theorem decode_object_eq_decode_iff (shape : Shape) {r : Record}
    {attributes : List (String × Datum)} (object : r.attributes = .record attributes) :
    (Item.raw (shape.object r)).decode = r.decode ↔
      r.id.Unwritable ∨ r.Readable ∨ r.id.Reads "" ∧
        ¬ r.schema.Unwritable ∧ ¬ r.issuer.Unwritable ∧ ¬ r.subject.Unwritable := by
  have unwritten := exists_worded_eq_error_iff (r := r)
  rcases decode_object shape object with ⟨cause, failed, interrupted⟩ | ⟨w, same, decoded⟩
  · rw [interrupted]
    constructor
    · intro equal
      exact Or.inl (Datum.exists_display_eq_error_iff.mp ⟨_, decode_eq_unwritten_iff.mp equal.symm⟩)
    · rintro (unwritable | readable | ⟨nameless, others⟩)
      · obtain ⟨reason, failed', broken⟩ := worded_of_unwritable unwritable
        rw [broken, Except.error.inj (failed.symm.trans failed')]
      · obtain ⟨w, same, -⟩ := readable.exists_worded
        cases failed.symm.trans same
      · have one := unwritten.mp ⟨cause, failed⟩
        have written := nameless.not_unwritable
        tauto
  · have none : ¬ ∃ cause, r.worded = .error cause := by simp [same]
    rw [unwritten, not_or, not_or, not_or] at none
    rw [decoded, decode_worded_eq_iff object same]
    tauto

/-- An object in one of the two shapes is decoded like the record that it holds just if the
identifier of that record cannot be displayed, or all of its parts are of the right kinds, or it has
no name and its other parts can be displayed. A record with a part of the wrong kind is complained
about unless its identifier cannot be displayed. The object is complained about only where the texts
of its values do not make up a well-formed record, and decoding it is interrupted by a value without
a text just if it has one. -/
theorem decode_object_eq_iff (shape : Shape) {r : Record} {attributes : List (String × Datum)}
    (object : r.attributes = .record attributes) :
    ((Item.raw (shape.object r)).decode = (Item.record r).decode ↔
        r.id.Unwritable ∨ r.Readable ∨ r.id.Reads "" ∧
          ¬ r.schema.Unwritable ∧ ¬ r.issuer.Unwritable ∧ ¬ r.subject.Unwritable) ∧
      (¬ r.Readable →
        ((∃ m, (Item.record r).decode = .error (.malformed m)) ↔ ¬ r.id.Unwritable)) ∧
      ((∃ m, (Item.raw (shape.object r)).decode = .error (.malformed m)) ↔
        ∃ w, r.worded = .ok w ∧ ¬ w.WellFormed) ∧
      ((∃ cause, (Item.raw (shape.object r)).decode = .error (.unwritten cause)) ↔
        r.id.Unwritable ∨ r.schema.Unwritable ∨ r.issuer.Unwritable ∨ r.subject.Unwritable) := by
  have record : (Item.record r).decode = r.decode := rfl
  rw [record, ← exists_worded_eq_error_iff]
  refine ⟨decode_object_eq_decode_iff shape object, fun unreadable => ?_, ?_⟩
  · rw [exists_malformed_iff]
    exact and_iff_right fun ⟨_, states⟩ => unreadable states.readable
  · rcases decode_object shape object with ⟨cause, failed, interrupted⟩ | ⟨w, same, decoded⟩
    · rw [interrupted, failed]
      exact ⟨by simp [Undecoded.unwritten], by simp⟩
    · simp only [decoded, same, exists_malformed_iff, decode_eq_unwritten_iff,
        Datum.exists_display_eq_error_iff, worded_written same]
      simp

/-- A record whose subject is a list. -/
def cohort : Record where
  id := .text "T3"
  schema := .text "EMatouMembershipSchemaV1"
  issuer := .text "org"
  subject := .list [.text "u5"]

theorem cohort_not_readable : ¬ cohort.Readable := by
  rintro ⟨-, -, -, -, _, ⟨⟩⟩

/-- In an object the list is displayed, and its text is taken for the identifier of a member. -/
theorem decode_cohort (shape : Shape) : (Item.raw (shape.object cohort)).decode =
    .ok ⟨"T3", "org", "['u5']", none, none, none, .membership none none []⟩ := by
  cases shape <;> decide +kernel

/-- The record is complained about, and the object is not. -/
theorem decode_object_eq_iff_cohort :
    cohort.attributes = .record [] ∧
      (Item.raw (Shape.exchanged.object cohort)).decode ≠ (Item.record cohort).decode ∧
      (∃ m, (Item.record cohort).decode = .error (.malformed m)) ∧
      ∃ w, cohort.worded = .ok w ∧ w.WellFormed := by
  obtain ⟨same, broken, rejected, interrupted⟩ := decode_object_eq_iff .exchanged (r := cohort) rfl
  have written : ¬ cohort.id.Unwritable := (Datum.Reads.text "T3").not_unwritable
  refine ⟨rfl, fun equal => ?_, (broken cohort_not_readable).mpr written, ?_⟩
  · rcases same.mp equal with unwritable | readable | ⟨nameless, -⟩
    · exact written unwritable
    · exact cohort_not_readable readable
    · exact absurd ((Datum.Reads.text "T3").unique nameless) (by decide)
  · cases put : cohort.worded with
    | error cause =>
      obtain ⟨reason, failed⟩ := interrupted.mpr (exists_worded_eq_error_iff.mp ⟨cause, put⟩)
      rw [decode_cohort] at failed
      cases failed
    | ok w =>
      refine ⟨w, rfl, ?_⟩
      by_contra unstated
      obtain ⟨m, malformed⟩ := rejected.mpr ⟨w, put, unstated⟩
      rw [decode_cohort] at malformed
      cases malformed

/-- Objects are neither decoded like the records that they hold, nor are all of those rejected that
hold values of the wrong kinds. -/
theorem not_decode_object_eq :
    (¬ ∀ (shape : Shape) (r : Record) (attributes : List (String × Datum)),
        r.attributes = .record attributes →
          (Item.raw (shape.object r)).decode = (Item.record r).decode) ∧
      ¬ ∀ (shape : Shape) (r : Record) (attributes : List (String × Datum)),
        r.attributes = .record attributes → ¬ r.Readable →
          ∃ m, (Item.raw (shape.object r)).decode = .error (.malformed m) := by
  constructor
  · intro same
    have equal := same .cached cohort [] rfl
    rw [decode_cohort] at equal
    cases equal
  · intro rejected
    obtain ⟨m, malformed⟩ := rejected .cached cohort [] rfl cohort_not_readable
    rw [decode_cohort] at malformed
    cases malformed

end Record

end Vouch
