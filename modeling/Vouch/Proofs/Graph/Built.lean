import Vouch.Proofs.Graph.Drawn

namespace Vouch

namespace Item

/-- The credential in an item, if there is one. -/
def credential? (item : Item) : Option Credential := item.decode.toOption

theorem credential?_eq_some_iff {item : Item} {c : Credential} :
    item.credential? = some c ↔ item.decode = .ok c := by
  rw [credential?]
  cases item.decode <;> simp [Except.toOption]

/-- What is wrong with an item, if it is malformed. -/
def malformed? (item : Item) : Option Malformed :=
  match item.decode with
  | .error (.malformed cause) => some cause
  | _ => none

/-- What interrupts the decoding of an item, if anything does. -/
def interruption? (item : Item) : Option Interruption :=
  match item.decode with
  | .error (.interrupted cause) => some cause
  | _ => none

theorem interruption?_eq_some_iff {item : Item} {cause : Interruption} :
    item.interruption? = some cause ↔ item.decode = .error (.interrupted cause) := by
  rw [interruption?]
  split <;> simp_all

/-- Decoding an item breaks off. -/
def BreaksOff (item : Item) : Prop := item.interruption? ≠ none

theorem breaksOff_iff_exists {item : Item} :
    item.BreaksOff ↔ ∃ cause, item.decode = .error (.interrupted cause) := by
  simp only [BreaksOff, Option.ne_none_iff_exists', interruption?_eq_some_iff]

/-- A membership of one identity, stated by another, with further attributes. -/
def joining (attributes : List (String × Datum)) : Item :=
  record {
    id := .text "1"
    schema := .text "membership"
    issuer := .text "R"
    subject := .text "A"
    attributes := .record attributes }

end Item

theorem Reading.dawn_inside : 0 < 3652059 * 86400000000 := by decide

/-- The beginning of the calendar. -/
def Reading.dawn : Reading := ⟨0, dawn_inside⟩

/-- Sifting takes items apart one by one, and stops at the first one whose decoding breaks off. -/
theorem sift_eq (items : List Item) :
    sift items =
      match items.findSome? Item.interruption? with
      | some cause => .error cause
      | none => .ok ⟨items.filterMap Item.credential?, items.filterMap Item.malformed?⟩ := by
  induction items with
  | nil => rfl
  | cons item items ih =>
    rw [sift, ih, List.findSome?_cons, List.filterMap_cons, List.filterMap_cons]
    cases run : item.decode with
    | ok c =>
      simp only [Item.interruption?, Item.credential?, Item.malformed?, run, Except.toOption]
      cases items.findSome? Item.interruption? <;> rfl
    | error cause =>
      cases cause with
      | malformed cause =>
        simp only [Item.interruption?, Item.credential?, Item.malformed?, run, Except.toOption]
        cases items.findSome? Item.interruption? <;> rfl
      | interrupted cause => simp only [Item.interruption?, run]

theorem sift_eq_ok {items : List Item} (sound : ∀ item ∈ items, ¬ item.BreaksOff) :
    sift items = .ok ⟨items.filterMap Item.credential?, items.filterMap Item.malformed?⟩ := by
  have none : items.findSome? Item.interruption? = none :=
    List.findSome?_eq_none_iff.mpr fun item member => not_not.mp (sound item member)
  rw [sift_eq, none]

theorem sift_eq_error {items : List Item} (broken : ∃ item ∈ items, item.BreaksOff) :
    ∃ cause, sift items = .error cause := by
  cases found : items.findSome? Item.interruption? with
  | none =>
    obtain ⟨item, member, off⟩ := broken
    exact absurd (List.findSome?_eq_none_iff.mp found item member) off
  | some cause => exact ⟨cause, by rw [sift_eq, found]⟩

namespace Graph

/-- The credentials that the graph of some items takes in. -/
def takenFrom (items : List Item) : List Credential :=
  Credential.accepted (items.filterMap Item.credential?)

/-- The finished graph of some items, said without taking them in one after the other. -/
def built (naming : Naming) (root : String) (now : Reading) (items : List Item) : Graph :=
  { (drawn naming root (takenFrom items)).mark.fillLabels naming with
    builtAt := some (.ofUtc now)
    skipped := (items.filterMap Item.malformed?).map Malformed.message }

theorem build_eq_built {naming : Naming} {root : String} {now : Reading} {store : Store}
    {items : List Item} (named : root ≠ "") (listed : store.list = .ok items)
    (sound : ∀ item ∈ items, ¬ item.BreaksOff) :
    build naming root now store = .ok (built naming root now items) := by
  simp only [build, if_neg named, listed, ofItems, sift_eq_ok sound, grown_eq_drawn]
  rfl

theorem build_eq_interrupted {naming : Naming} {root : String} {now : Reading} {store : Store}
    {items : List Item} (named : root ≠ "") (listed : store.list = .ok items)
    (broken : ∃ item ∈ items, item.BreaksOff) :
    ∃ cause, build naming root now store = .error (.interrupted cause) := by
  obtain ⟨cause, failed⟩ := sift_eq_error broken
  exact ⟨cause, by simp only [build, if_neg named, listed, ofItems, failed]⟩

/-- All that a successful build can have done. -/
theorem build_cases {naming : Naming} {root : String} {now : Reading} {store : Store} {g : Graph}
    (run : build naming root now store = .ok g) :
    root ≠ "" ∧ ∃ items, store.list = .ok items ∧ (∀ item ∈ items, ¬ item.BreaksOff) ∧
      g = built naming root now items := by
  have named : root ≠ "" := by
    rintro rfl
    cases run
  cases listed : store.list with
  | error fault => simp [build, named, listed] at run
  | ok items =>
    by_cases sound : ∀ item ∈ items, ¬ item.BreaksOff
    · rw [build_eq_built named listed sound] at run
      exact ⟨named, items, rfl, sound, (Except.ok.inj run).symm⟩
    · obtain ⟨cause, failed⟩ :=
        @build_eq_interrupted naming root now store items named listed (by simpa using sound)
      cases failed.symm.trans run

theorem build_cases_of_list {naming : Naming} {root : String} {now : Reading} {store : Store}
    {items : List Item} {g : Graph} (listed : store.list = .ok items)
    (run : build naming root now store = .ok g) :
    root ≠ "" ∧ (∀ item ∈ items, ¬ item.BreaksOff) ∧ g = built naming root now items := by
  obtain ⟨named, others, again, inside, same⟩ := build_cases run
  obtain rfl : others = items := Except.ok.inj (again.symm.trans listed)
  exact ⟨named, inside, same⟩

theorem built_ids (naming : Naming) (root : String) (now : Reading) (items : List Item) :
    (built naming root now items).ids = (drawn naming root (takenFrom items)).ids := by
  rw [built]
  exact fillLabels_ids _ naming

theorem built_edges (naming : Naming) (root : String) (now : Reading) (items : List Item) :
    (built naming root now items).edges = (drawn naming root (takenFrom items)).mark.edges :=
  rfl

end Graph

end Vouch
