import Vouch.Bytes
import Vouch.Proofs.Credential.Interrupted
import Vouch.Proofs.Graph.Built
import Vouch.Proofs.Json.Writable

namespace Vouch

namespace FileState

variable {path : String} {state : FileState} {entries : List Datum}

/-- A file holds entries: it is an array of them, or an object with that array under
`credentials`. -/
inductive Holds (path : String) (state : FileState) (entries : List Datum) : Prop
  | bare (value : state.value path = .ok (.list entries))
  | wrapped {fields : List (String × Datum)} (value : state.value path = .ok (.record fields))
      (field : field? "credentials" fields = some (.list entries))

/-- What a file holds is what is found in it. -/
theorem entries_eq_ok_iff : state.entries path = .ok entries ↔ state.Holds path entries := by
  rw [FileState.entries]
  constructor
  · intro found
    cases value : state.value path with
    | error fault =>
      rw [value] at found
      cases found
    | ok d =>
      rw [value] at found
      cases d with
      | list items =>
        cases found
        exact .bare value
      | record fields =>
        cases field : field? "credentials" fields with
        | none => simp [entriesOf, field] at found
        | some inner =>
          cases inner <;> simp [entriesOf, field] at found
          exact .wrapped value (found ▸ field)
      | _ => simp [entriesOf] at found
  · rintro (value | ⟨value, field⟩)
    · rw [value]
      rfl
    · simp only [value, entriesOf, field, Option.getD_some]

theorem value_bytes {content : List UInt8} {cs : List Char} {d : Datum}
    (whole : holdsNull path = false) (decoded : Utf8.decode content = .ok cs)
    (read : Json.read (Text.unifyLines cs) = .ok d) : (bytes content).value path = .ok d := by
  simp only [FileState.value, whole, Bool.false_eq_true, if_false, valueOf, decoded, read]

theorem valueOf_fits {content : List UInt8} {d : Datum} (read : valueOf path content = .ok d) :
    d.Fits (Json.depthLimit + 1) := by
  unfold valueOf at read
  split at read
  · cases read
  · dsimp only at read
    split at read <;> cases read
    rename_i value
    exact Json.read_fits value

theorem value_fits {d : Datum} (read : state.value path = .ok d) :
    d.Fits (Json.depthLimit + 1) := by
  unfold FileState.value at read
  split at read
  · cases read
  · split at read
    · cases read
    · exact valueOf_fits read
    · exact valueOf_fits read

/-- What a file holds can be written. -/
theorem Holds.fit (holds : state.Holds path entries) :
    ∀ entry ∈ entries, entry.Fits Json.depthLimit := by
  rcases holds with value | ⟨value, field⟩
  · exact (Datum.fits_succ_iff.mp (value_fits value)).2
  · have fits := (Datum.fits_succ_iff.mp (value_fits value)).2 _ (Datum.mem_parts_of_field? field)
    exact (Datum.fits_succ_iff.mp (fits.mono (Nat.le_succ _))).2

end FileState

/-- An object among the entries of a file can be taken for a record. -/
theorem Record.exists_ofFields_of_fits {fields : List (String × Datum)}
    (fits : (Datum.record fields).Fits Json.depthLimit) : ∃ r, ofFields fields = .ok r := by
  cases taken : ofFields fields with
  | ok r => exact ⟨r, rfl⟩
  | error cause =>
    obtain ⟨names, -, d, given, unwritable⟩ := exists_ofFields_eq_error_iff.mp ⟨cause, taken⟩
    obtain ⟨name, -, found⟩ := List.exists_of_findSome?_eq_some given
    have member := Datum.mem_parts_of_field? (Option.filter_eq_some_iff.mp found).1
    have inner := (Datum.fits_succ_iff.mp (fits.mono (Nat.le_succ _))).2 d member
    have limits : Json.depthLimit ≤ Datum.nestingLimit := by decide
    exact absurd unwritable (Datum.fits_nestingLimit_iff.mp (inner.mono limits))

namespace Datum

def isObject : Datum → Bool
  | record _ => true
  | _ => false

/-- The complaint about a loose value, if it is taken for a credential and is none. -/
def complaint? (d : Datum) : Option String := (Item.raw d).malformed?.map Malformed.message

/-- A value that is no object is told apart by its kind. -/
theorem complaint?_of_not_isObject {d : Datum} (other : d.isObject = false) :
    d.complaint? = some ("credential '<no id>': unsupported record type " ++ d.kindName) := by
  cases d <;> first | rfl | cases other

end Datum

/-- An object is sifted alike whether it was taken for a record in the file or is so now. Values of
other kinds are passed over in the file, and so nothing is known to be wrong with them. -/
theorem exists_recordsOf {entries : List Datum}
    (fit : ∀ entry ∈ entries, entry.Fits Json.depthLimit) :
    ∃ records, recordsOf entries = .ok records ∧
      sift (records.map Item.record) =
        (sift (entries.map Item.raw)).map fun s =>
          { s with
            malformed := (entries.filter Datum.isObject).filterMap
              fun d => (Item.raw d).malformed? } := by
  induction entries with
  | nil => exact ⟨[], rfl, rfl⟩
  | cons d entries ih =>
    obtain ⟨records, others, sifted⟩ := ih fun e member => fit e (List.mem_cons_of_mem _ member)
    cases d with
    | record fields =>
      obtain ⟨r, taken⟩ := Record.exists_ofFields_of_fits (fit _ List.mem_cons_self)
      have same : (Item.record r).decode = (Item.raw (.record fields)).decode := by
        rw [Item.decode, Item.decode, Item.toRecord, Item.toRecord, taken]
        rfl
      have kept : (Datum.record fields :: entries).filter Datum.isObject =
          .record fields :: entries.filter Datum.isObject := rfl
      refine ⟨r :: records, ?_, ?_⟩
      · rw [recordsOf, Record.ofDatum, taken, others]
        rfl
      · rw [kept, List.map_cons, List.map_cons, sift, sift, sifted, same]
        cases run : (Item.raw (.record fields)).decode with
        | error cause =>
          cases cause <;> cases sift (entries.map Item.raw) <;>
            simp [Except.map, Item.malformed?, run]
        | ok c =>
          cases sift (entries.map Item.raw) <;> simp [Except.map, Item.malformed?, run]
    | _ =>
      refine ⟨records, others, sifted.trans ?_⟩
      cases rest : sift (entries.map Item.raw) <;>
        simp [sift, Item.decode, Item.toRecord, rest, Except.map, Datum.isObject]

/-- What a file holds is listed as records, and sifted like the loose values. -/
theorem FileState.Holds.exists_list_eq {path : String} {state : FileState} {entries : List Datum}
    (holds : state.Holds path entries) :
    ∃ records : List Record, (Store.file path state).list = .ok (records.map Item.record) ∧
      sift (records.map Item.record) =
        (sift (entries.map Item.raw)).map fun s =>
          { s with
            malformed := (entries.filter Datum.isObject).filterMap
              fun d => (Item.raw d).malformed? } := by
  have found := entries_eq_ok_iff.mpr holds
  obtain ⟨records, taken, sifted⟩ := exists_recordsOf holds.fit
  exact ⟨records, by simp only [Store.list, found, taken], sifted⟩

namespace Graph

variable {naming : Naming} {root : String} {now : Reading} {path : String} {state : FileState}
  {entries : List Datum}

theorem built_skipped_raw :
    (built naming root now (entries.map Item.raw)).skipped =
      entries.filterMap Datum.complaint? := by
  rw [built, List.filterMap_map, List.map_filterMap]
  rfl

/-- A file of entries and the same entries in memory make the same graph, or fail for the same
reason. Only the complaints about entries that are no objects are left out with the file. -/
theorem build_held (naming : Naming) (root : String) (now : Reading)
    (holds : state.Holds path entries) :
    build naming root now (.file path state) =
        (build naming root now (.memory (entries.map Item.raw))).map (fun g =>
          { g with skipped := (entries.filter Datum.isObject).filterMap Datum.complaint? }) ∧
      (∀ g, build naming root now (.memory (entries.map Item.raw)) = .ok g →
        g.skipped = entries.filterMap Datum.complaint?) ∧
      ∀ d ∈ entries, d.isObject = false →
        d.complaint? = some ("credential '<no id>': unsupported record type " ++ d.kindName) := by
  refine ⟨?_, fun g run => ?_, fun d _ => Datum.complaint?_of_not_isObject⟩
  · by_cases named : root = ""
    · simp only [build, named, if_true, Except.map]
    · obtain ⟨records, listed, sifted⟩ := holds.exists_list_eq
      rw [build, build, if_neg named, if_neg named, listed, Store.list]
      simp only [ofItems, sifted]
      cases sift (entries.map Item.raw) with
      | error cause => rfl
      | ok sifted =>
        simp only [Except.map]
        cases grown naming root sifted.credentials with
        | error fault => rfl
        | ok g =>
          simp only [List.map_filterMap]
          rfl
  · obtain ⟨_, _, rfl⟩ := build_cases_of_list rfl run
    exact built_skipped_raw

/-- A loose text, and a credential without a schema. -/
def offered : List Datum :=
  [.text "-", .record [("d", .text "1"), ("i", .text "R"), ("subject", .text "A")]]

/-- A text with them in it. -/
def offer : String :=
  "\x7b\"credentials\": [\"-\", \x7b\"d\": \"1\", \"i\": \"R\", \"subject\": \"A\"\x7d]\x7d"

theorem offer_read :
    Json.read (Text.unifyLines offer.toList) = .ok (.record [("credentials", .list offered)]) := by
  cbv

theorem offer_holds : (FileState.bytes (Bytes.ofText offer)).Holds "creds.json" offered :=
  .wrapped (FileState.value_bytes (by decide) (by decide +kernel) offer_read) rfl

/-- With the file, nothing is said about the loose text. -/
theorem build_held_offer :
    ∃ g, build {} "R" .dawn (.memory (offered.map Item.raw)) = .ok g ∧
      build {} "R" .dawn (.file "creds.json" (.bytes (Bytes.ofText offer))) =
        .ok { g with skipped := [] } ∧
      g.skipped = ["credential '<no id>': unsupported record type str"] := by
  have inside : ∀ item ∈ offered.map Item.raw, ¬ item.BreaksOff := by
    simp only [Item.BreaksOff]
    decide +kernel
  have run : build {} "R" .dawn (.memory (offered.map Item.raw)) =
      .ok (built {} "R" .dawn (offered.map Item.raw)) := build_eq_built (by decide) rfl inside
  obtain ⟨same, complaints, _⟩ := build_held {} "R" .dawn offer_holds
  have without : (offered.filter Datum.isObject).filterMap Datum.complaint? = [] := by
    decide +kernel
  refine ⟨_, run, ?_, ?_⟩
  · rw [same, run, without]
    rfl
  · rw [complaints _ run]
    decide +kernel

end Graph

end Vouch
