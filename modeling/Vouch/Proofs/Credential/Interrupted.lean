import Vouch.Proofs.Credential.WellFormed

namespace Vouch

namespace Record

theorem exists_displayed_eq_error_iff {names : List String} {fields : List (String × Datum)} :
    (∃ cause, displayed names fields = .error cause) ↔
      ∃ d, firstGiven? names fields = some d ∧ d.Unwritable := by
  rw [displayed]
  cases firstGiven? names fields with
  | none => simp
  | some d =>
    have wording : (if d.isVoid then .ok "" else d.display) = d.wording := rfl
    simp only [wording, Datum.wording_eq_error_iff, Datum.exists_display_eq_error_iff,
      Option.some.injEq, exists_eq_left']

/-- The names of the fields of an object that are put into texts: those of the identifier, the
schema, the issuer and the subject. -/
def textNames : List (List String) :=
  [["id", "said", "d"], ["schemaID", "schema", "s"], ["issuerAID", "issuer", "i"],
    ["subjectAID", "recipient", "subject"]]

theorem exists_ofFields_eq_ok_iff {fields : List (String × Datum)} :
    (∃ r, ofFields fields = .ok r) ↔
      ∀ names ∈ textNames, ∃ text, displayed names fields = .ok text := by
  simp only [textNames, List.forall_mem_cons, List.not_mem_nil, false_implies, implies_true,
    and_true]
  constructor
  · rintro ⟨r, taken⟩
    simp only [ofFields, bind_eq_ok_iff] at taken
    obtain ⟨id, first, schema, second, issuer, third, subject, fourth, -⟩ := taken
    exact ⟨⟨id, first⟩, ⟨schema, second⟩, ⟨issuer, third⟩, ⟨subject, fourth⟩⟩
  · rintro ⟨⟨id, first⟩, ⟨schema, second⟩, ⟨issuer, third⟩, ⟨subject, fourth⟩⟩
    simp only [ofFields, first, second, third, fourth]
    exact ⟨_, rfl⟩

theorem exists_ofFields_eq_error_iff {fields : List (String × Datum)} :
    (∃ cause, ofFields fields = .error cause) ↔
      ∃ names ∈ textNames, ∃ d, firstGiven? names fields = some d ∧ d.Unwritable := by
  simp only [exists_eq_error_iff, exists_ofFields_eq_ok_iff, not_forall, exists_prop,
    ← exists_displayed_eq_error_iff]

/-- The identifier of a record that is taken from an object can be displayed. -/
theorem ofFields_written {fields : List (String × Datum)} {r : Record}
    (taken : ofFields fields = .ok r) : ¬ r.id.Unwritable := by
  simp only [ofFields, bind_eq_ok_iff] at taken
  obtain ⟨id, -, schema, -, issuer, -, subject, -, same⟩ := taken
  rw [← Except.ok.inj same]
  exact (Datum.Reads.text id).not_unwritable

theorem resolve_ne_outside {r : Record} {place : OutsideCalendar} :
    r.resolve ≠ .error (.interrupted (.outside place)) := by
  intro broken
  obtain ⟨_, ⟨⟩, _⟩ | ⟨_, ⟨⟩, _⟩ := resolve_error broken

end Record

namespace Item

/-- A value without a text stands where a text is needed: as the identifier of a record, or among
the fields of an object that are put into texts. -/
def Unwritten : Item → Prop
  | record r => r.id.Unwritable
  | raw (.record fields) => ∃ names ∈ Record.textNames, ∃ d,
      Record.firstGiven? names fields = some d ∧ d.Unwritable
  | raw _ => False

theorem toRecord_ne_outside {item : Item} {place : OutsideCalendar} :
    item.toRecord ≠ .error (.interrupted (.outside place)) := by
  fun_cases Item.toRecord item with
  | case1 r => simp
  | case2 fields =>
    cases Record.ofFields fields <;> simp [Except.mapError, Undecoded.unwritten]
  | case3 value => simp

theorem decode_eq_outside_iff {item : Item} {cause : OutsideCalendar} :
    item.decode = .error (.interrupted (.outside cause)) ↔ item.Outside := by
  unfold Item.decode Item.Outside
  cases taken : item.toRecord with
  | error fault =>
    have other : fault ≠ .interrupted (.outside cause) := fun same =>
      toRecord_ne_outside (same ▸ taken)
    simp [other]
  | ok r =>
    simp only [Record.decode]
    cases resolved : r.resolve with
    | error fault =>
      have other : fault ≠ .interrupted (.outside cause) := fun same =>
        Record.resolve_ne_outside (same ▸ resolved)
      simp [resolved, other]
    | ok found =>
      have times := @Record.first?_sightings_iff r found.attributes cause
      cases search : Sighting.first? (r.sightings found.attributes) with
      | error other =>
        have same : other = cause := rfl
        rw [search, same] at times
        simpa [resolved, search, same] using times
      | ok issuedAt =>
        rw [search] at times
        simpa [resolved, search] using times

theorem exists_decode_eq_unwritten_iff {item : Item} :
    (∃ cause, item.decode = .error (.unwritten cause)) ↔ item.Unwritten := by
  rcases item with r | value
  · change (∃ cause, r.decode = .error (.unwritten cause)) ↔ r.id.Unwritable
    simp only [Record.decode_eq_unwritten_iff, Datum.exists_display_eq_error_iff]
  cases value with
  | record fields =>
    refine Iff.trans ?_ Record.exists_ofFields_eq_error_iff
    simp only [decode, toRecord]
    cases taken : Record.ofFields fields with
    | error cause => simp [Except.mapError, Undecoded.unwritten]
    | ok r =>
      have written := Record.ofFields_written taken
      simp [Except.mapError, Record.decode_eq_unwritten_iff, Datum.exists_display_eq_error_iff,
        written]
  | _ => simp [decode, toRecord, Undecoded.unwritten, Unwritten]

/-- Decoding an item breaks off if its time of issue is outside of the calendar, and if a value
without a text stands where a text is needed. -/
theorem exists_decode_eq_interrupted_iff {item : Item} :
    (∃ cause, item.decode = .error (.interrupted cause)) ↔ item.Outside ∨ item.Unwritten := by
  rw [← exists_decode_eq_unwritten_iff]
  constructor
  · rintro ⟨place | cause, broken⟩
    · exact Or.inl (decode_eq_outside_iff.mp broken)
    · exact Or.inr ⟨cause, broken⟩
  · rintro (off | ⟨cause, broken⟩)
    · exact ⟨.outside ⟨⟩, decode_eq_outside_iff.mpr off⟩
    · exact ⟨.unwritten cause, broken⟩

end Item

end Vouch
