import Vouch.Credential.Sift

namespace Vouch

/-- A point in time whose reading of universal time no calendar day from the year 1 to the year
9999 holds. -/
def Timestamp.Outside (t : Timestamp) : Prop :=
  t.instant < 0 ∨ 3652059 * 86400000000 ≤ t.instant

/-- A value is a point in time, or the text of one. -/
def Datum.Gives (d : Datum) (t : Timestamp) : Prop :=
  d = .time t ∨ ∃ text, d = .text text ∧ Iso.timestamp? (Text.trim text.toList) = some t

theorem Timestamp.utc?_eq_none_iff {t : Timestamp} : t.utc? = none ↔ t.Outside := by
  unfold utc? Reading.ofMicros? Outside
  split
  · simp only [reduceCtorEq, false_iff]
    omega
  · simp only [true_iff]
    omega

namespace Sighting

theorem ofTimestamp_eq_outside_iff {t : Timestamp} : ofTimestamp t = outside ↔ t.Outside := by
  rw [← Timestamp.utc?_eq_none_iff, ofTimestamp]
  cases t.utc? <;> simp

theorem ofEpoch_ne_outside (micros : Int) : ofEpoch micros ≠ outside := by
  unfold ofEpoch
  split <;> simp

theorem ofText_eq_outside_iff {text : String} :
    ofText text = outside ↔
      ∃ t, Iso.timestamp? (Text.trim text.toList) = some t ∧ t.Outside := by
  unfold ofText
  split
  · rename_i blank
    have none : Iso.timestamp? [] = none := rfl
    rw [blank, none]
    simp
  · cases read : Iso.timestamp? _ with
    | none => simp
    | some t => simp [ofTimestamp_eq_outside_iff]

/-- Numbers of seconds never lead outside of the calendar. Only points in time and their texts
do. -/
theorem ofDatum_eq_outside_iff {d : Datum} :
    ofDatum d = outside ↔ ∃ t, d.Gives t ∧ t.Outside := by
  cases d with
  | time s => simp [ofDatum, Datum.Gives, ofTimestamp_eq_outside_iff]
  | text text => simp [ofDatum, Datum.Gives, ofText_eq_outside_iff]
  | int seconds => simpa [ofDatum, Datum.Gives] using ofEpoch_ne_outside _
  | float seconds =>
    simp only [ofDatum, Datum.Gives, reduceCtorEq, false_and, exists_false, or_self, iff_false]
    split
    · simp
    · exact ofEpoch_ne_outside _
  | null => simp [ofDatum, Datum.Gives]
  | bool value => simp [ofDatum, Datum.Gives]
  | list items => simp [ofDatum, Datum.Gives]
  | tuple items => simp [ofDatum, Datum.Gives]
  | record fields => simp [ofDatum, Datum.Gives]

/-- A search comes upon a point outside of the calendar before it finds a reading. -/
def BreakOff (sightings : List Sighting) : Prop :=
  ∃ before after, sightings = before ++ outside :: after ∧
    ∀ s ∈ before, ∀ reading, s ≠ found reading

theorem not_breakOff_found (reading : Reading) (rest : List Sighting) :
    ¬ BreakOff (found reading :: rest) := by
  rintro ⟨before, after, split, clear⟩
  cases before with
  | nil => simp at split
  | cons head tail =>
    obtain ⟨rfl, _⟩ := List.cons.inj split
    exact clear _ List.mem_cons_self reading rfl

theorem breakOff_cons_iff {s : Sighting} (unread : ∀ reading, s ≠ found reading)
    (inside : s ≠ outside) (rest : List Sighting) : BreakOff (s :: rest) ↔ BreakOff rest := by
  constructor
  · rintro ⟨before, after, split, clear⟩
    cases before with
    | nil => exact absurd (List.cons.inj split).1 inside
    | cons head tail =>
      obtain ⟨_, rfl⟩ := List.cons.inj split
      exact ⟨tail, after, rfl, fun s member => clear s (List.mem_cons_of_mem _ member)⟩
  · rintro ⟨before, after, rfl, clear⟩
    refine ⟨s :: before, after, rfl, fun t member => ?_⟩
    rcases List.mem_cons.mp member with rfl | later
    · exact unread
    · exact clear t later

theorem first?_eq_error_iff {sightings : List Sighting} {cause : OutsideCalendar} :
    first? sightings = .error cause ↔ BreakOff sightings := by
  induction sightings with
  | nil => simp [first?, BreakOff]
  | cons s rest ih =>
    cases s with
    | found reading => simpa [first?] using not_breakOff_found reading rest
    | outside =>
      simp only [first?, true_iff]
      exact ⟨[], rest, rfl, by simp⟩
    | nothing => rw [breakOff_cons_iff (by simp) (by simp), ← ih, first?] <;> simp
    | unreadable text => rw [breakOff_cons_iff (by simp) (by simp), ← ih, first?] <;> simp

end Sighting

namespace Record

/-- The values that are looked at for the time of issue, in this order. -/
def times (r : Record) (attributes : List (String × Datum)) : List Datum :=
  (timeNames.map fun name => (field? name attributes).getD .null) ++ [r.issuedAt]

theorem sightings_eq (r : Record) (attributes : List (String × Datum)) :
    r.sightings attributes = (r.times attributes).map Sighting.ofDatum := by
  simp [sightings, times]

end Record

/-- An item whose time of issue leaves the calendar: it names an issuer and a subject, and one of
the values looked at is a point outside, with no value before it that can be read. -/
def Item.Outside (item : Item) : Prop :=
  ∃ r found, item.toRecord = .ok r ∧ r.resolve = .ok found ∧
    ∃ before d after, r.times found.attributes = before ++ d :: after ∧
      (∀ e ∈ before, ∀ reading, Sighting.ofDatum e ≠ .found reading) ∧
      ∃ t, d.Gives t ∧ t.Outside

theorem Record.first?_sightings_iff {r : Record} {attributes : List (String × Datum)}
    {cause : OutsideCalendar} :
    Sighting.first? (r.sightings attributes) = .error cause ↔
      ∃ before d after, r.times attributes = before ++ d :: after ∧
        (∀ e ∈ before, ∀ reading, Sighting.ofDatum e ≠ .found reading) ∧
        ∃ t, d.Gives t ∧ t.Outside := by
  rw [Sighting.first?_eq_error_iff, Record.sightings_eq]
  constructor
  · rintro ⟨before, after, split, clear⟩
    obtain ⟨front, rest, times, rfl, tail⟩ := List.map_eq_append_iff.mp split
    obtain ⟨d, back, rfl, off, rfl⟩ := List.map_eq_cons_iff.mp tail
    refine ⟨front, d, back, times, fun e member => ?_, Sighting.ofDatum_eq_outside_iff.mp off⟩
    exact clear _ (List.mem_map_of_mem member)
  · rintro ⟨before, d, after, times, clear, off⟩
    refine ⟨before.map Sighting.ofDatum, after.map Sighting.ofDatum, ?_, ?_⟩
    · rw [times, List.map_append, List.map_cons, Sighting.ofDatum_eq_outside_iff.mpr off]
    · intro s member
      obtain ⟨e, inside, rfl⟩ := List.mem_map.mp member
      exact clear e inside

end Vouch
