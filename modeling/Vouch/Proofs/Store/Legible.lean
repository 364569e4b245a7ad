import Vouch.Proofs.CommandLine.Broken
import Vouch.Proofs.Json.Limits
import Vouch.Proofs.Text.Utf8

namespace Vouch

/-- Bytes can be read, be it only to find a place where the notation is wrong: they are a text, and
it stays within the limits. -/
def Legible (content : List UInt8) : Prop :=
  ∃ text : String, content = Bytes.ofText text ∧
    ∀ fault, ¬ Json.GoesBeyond (Text.unifyLines text.toList) fault

/-- A file can be read, or it can be told what stands in the way of opening it. -/
def FileState.Legible (path : String) (state : FileState) : Prop :=
  holdsNull path = false ∧ ∀ content, state = .bytes content → Vouch.Legible content

/-- What is wrong with a text is reported just if it is wrong at a place of the text. -/
theorem valueOf_ofText_reported_iff {path text : String} :
    (∀ fault, valueOf path (Bytes.ofText text) = .error fault → fault.isReported = true) ↔
      ∀ fault, Json.read (Text.unifyLines text.toList) = .error fault → fault.IsLocated := by
  have decoded : Utf8.decode (Bytes.ofText text) = .ok text.toList := Utf8.decode_eq_ok_iff.mpr rfl
  simp only [valueOf, decoded]
  cases Json.read (Text.unifyLines text.toList) with
  | ok value => refine iff_of_true ?_ ?_ <;> rintro _ ⟨⟩
  | error cause =>
    cases cause with
    | located complaint position =>
      refine iff_of_true ?_ ?_ <;> rintro _ ⟨⟩
      · rfl
      · exact ⟨_, _, rfl⟩
    | tooManyDigits | tooDeep =>
      refine iff_of_false (fun reported => ?_) fun located => ?_
      · exact absurd (reported _ rfl) Bool.false_ne_true
      · obtain ⟨_, _, ⟨⟩⟩ := located _ rfl

/-- Bytes are legible just if the notation is all that can be wrong with them. -/
theorem valueOf_reported_iff {path : String} {content : List UInt8} :
    (∀ fault, valueOf path content = .error fault → fault.isReported = true) ↔
      Legible content := by
  simp only [Legible, ← Json.read_located_iff]
  constructor
  · intro reported
    cases decoded : Utf8.decode content with
    | error cause =>
      have failed : valueOf path content = .error (.undecodable cause) := by
        simp only [valueOf, decoded]
      exact absurd (reported _ failed) Bool.false_ne_true
    | ok cs =>
      obtain ⟨text, rfl⟩ : ∃ text : String, cs = text.toList :=
        ⟨.ofList cs, String.toList_ofList.symm⟩
      obtain rfl := Utf8.decode_eq_ok_iff.mp decoded
      exact ⟨text, rfl, valueOf_ofText_reported_iff.mp reported⟩
  · rintro ⟨text, rfl, located⟩
    exact valueOf_ofText_reported_iff.mpr located

theorem legible_nil : Legible [] := by
  refine ⟨"", by decide +kernel, Json.read_located_iff.mp fun fault failed => ?_⟩
  have empty : Json.read (Text.unifyLines "".toList) = .error (.located .value 0) := by cbv
  rw [empty] at failed
  cases failed
  exact ⟨_, _, rfl⟩

theorem FileState.value_reported_iff {path : String} {state : FileState} :
    (∀ fault, state.value path = .error fault → fault.isReported = true) ↔
      state.Legible path := by
  unfold FileState.value FileState.Legible
  cases null : holdsNull path with
  | true =>
    refine iff_of_false (fun reported => ?_) fun legible => nomatch legible.1
    exact absurd (reported .nullInPath rfl) Bool.false_ne_true
  | false =>
    rw [if_neg Bool.false_ne_true]
    cases state with
    | bytes content => simp [valueOf_reported_iff]
    | full => simp [valueOf_reported_iff, legible_nil]
    | blocked obstacle => simp [StoreFault.isReported]

theorem entriesOf_eq_error {path : String} {value : Datum} {fault : StoreFault}
    (failed : entriesOf path value = .error fault) : fault = .noArray path := by
  unfold entriesOf at failed
  dsimp only at failed
  split at failed
  · cases failed
  · cases failed
    rfl

/-- Listing a file gives records, or fails like reading its entries. -/
theorem Store.list_file_cases (path : String) (state : FileState) :
    (∃ entries, ∃ records : List Record, state.entries path = .ok entries ∧
        (file path state).list = .ok (records.map Item.record)) ∨
      ∃ fault, state.entries path = .error fault ∧ (file path state).list = .error fault := by
  cases found : state.entries path with
  | ok entries =>
    obtain ⟨records, listed, -⟩ := (FileState.entries_eq_ok_iff.mp found).exists_list_eq
    exact Or.inl ⟨entries, records, rfl, listed⟩
  | error fault => exact Or.inr ⟨fault, rfl, by rw [Store.list, found]⟩

theorem Store.list_reported_iff {path : String} {state : FileState} :
    (∀ fault, (file path state).list = .error fault → fault.isReported = true) ↔
      state.Legible path := by
  rw [← FileState.value_reported_iff]
  rcases list_file_cases path state with ⟨entries, records, found, listed⟩ |
    ⟨fault, failed, listed⟩ <;> rw [listed]
  · refine iff_of_true (by rintro _ ⟨⟩) fun fault broken => ?_
    rw [FileState.entries, broken] at found
    cases found
  · rw [FileState.entries] at failed
    cases value : state.value path with
    | error cause =>
      rw [value] at failed
      cases failed
      simp
    | ok value' =>
      rw [value] at failed
      rw [entriesOf_eq_error failed]
      exact iff_of_true (by rintro _ ⟨⟩; rfl) (by rintro _ ⟨⟩)

/-- A credential file gives records, or a fault that is reported, just if it is legible. A command
breaks off because of it just if it comes to read it and it is not. -/
theorem list_legible_iff (path : String) (state : FileState) :
    (((∃ records : List Record, (Store.file path state).list = .ok (records.map Item.record)) ∨
        ∃ fault, (Store.file path state).list = .error fault ∧ fault.isReported = true) ↔
      state.Legible path) ∧
    ∀ (world : Surroundings) (root : String) (command : Command) (args : List String),
      world.file path = state → command.AskedBy world path root args →
        ((∃ fault, (runProgram world args).ending = .breakdown (.build (.store fault))) ↔
          command.ReadsFile ∧ ¬ state.Legible path) := by
  rw [← Store.list_reported_iff]
  refine ⟨?_, ?_⟩
  · rcases Store.list_file_cases path state with ⟨entries, records, -, listed⟩ |
      ⟨fault, -, listed⟩ <;> rw [listed]
    · exact iff_of_true (Or.inl ⟨records, rfl⟩) (by rintro _ ⟨⟩)
    · simp
  · rintro world root command args rfl asked
    obtain ⟨_, same⟩ := asked.runProgram_eq
    simp only [same, Command.run_broken_iff asked.root_ne, not_forall, exists_prop,
      Bool.not_eq_true, exists_and_left]

/-- A byte that begins no character. -/
theorem list_stray_byte :
    (Store.file "creds.json" (.bytes [0xff])).list =
      .error (.undecodable ⟨.startByte, 0xff, 0, 1⟩) := by
  have whole : holdsNull "creds.json" = false := by decide
  have decoded : Utf8.decode [0xff] = .error ⟨.startByte, 0xff, 0, 1⟩ := by decide +kernel
  simp only [Store.list, FileState.entries, FileState.value, whole, Bool.false_eq_true, if_false,
    valueOf, decoded]

theorem list_legible_iff_stray_byte :
    ¬ FileState.Legible "creds.json" (.bytes [0xff]) ∧
      (∃ fault, (runProgram (.filing [0xff])
        ["summary", "--credentials", "creds.json", "--root", "R"]).ending =
          .breakdown (.build (.store fault))) ∧
      FileState.Legible "creds.json" (.bytes (Bytes.ofText Graph.offer)) ∧
      ∀ fault, (runProgram (.filing (Bytes.ofText Graph.offer))
        ["summary", "--credentials", "creds.json", "--root", "R"]).ending ≠
          .breakdown (.build (.store fault)) := by
  have asked : ∀ content, Command.summary.AskedBy (.filing content) "creds.json" "R"
      ["summary", "--credentials", "creds.json", "--root", "R"] := fun content =>
    ⟨⟨.summary, some "creds.json", some "R", .nothing⟩, by decide +kernel, rfl, by decide,
      by cbv, by cbv⟩
  have illegible : ¬ FileState.Legible "creds.json" (.bytes [0xff]) := by
    rw [← (list_legible_iff "creds.json" (.bytes [0xff])).1, list_stray_byte]
    rintro (⟨_, ⟨⟩⟩ | ⟨fault, ⟨⟩, ⟨⟩⟩)
  have offered : ∃ records : List Record,
      (Store.file "creds.json" (.bytes (Bytes.ofText Graph.offer))).list =
        .ok (records.map Item.record) := by
    obtain ⟨records, listed, -⟩ := Graph.offer_holds.exists_list_eq
    exact ⟨records, listed⟩
  have legible : FileState.Legible "creds.json" (.bytes (Bytes.ofText Graph.offer)) :=
    (list_legible_iff "creds.json" _).1.mp (Or.inl offered)
  have breaks := (list_legible_iff "creds.json" _).2 _ _ _ _ rfl (asked [0xff])
  have stays := (list_legible_iff "creds.json" _).2 _ _ _ _ rfl
    (asked (Bytes.ofText Graph.offer))
  refine ⟨illegible, breaks.mpr ⟨trivial, illegible⟩, legible, fun fault broken => ?_⟩
  exact (stays.mp ⟨fault, broken⟩).2 legible

/-- Not all that can be wrong with a file is reported. -/
theorem not_list_reported :
    ¬ ∀ (path : String) (content : List UInt8),
      (∃ records : List Record,
        (Store.file path (.bytes content)).list = .ok (records.map Item.record)) ∨
      ∃ fault, (Store.file path (.bytes content)).list = .error fault ∧
        fault.isReported = true := by
  intro reported
  have stray := reported "creds.json" [0xff]
  rw [list_stray_byte] at stray
  obtain ⟨_, ⟨⟩⟩ | ⟨_, ⟨⟩, ⟨⟩⟩ := stray

end Vouch
