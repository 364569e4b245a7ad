import Vouch.Proofs.Credential.Stable
import Vouch.Proofs.Credential.WellFormed
import Vouch.Proofs.Graph.Tally
import Vouch.Proofs.Graph.Texts

namespace Vouch

namespace Credential

/-- This is the last that credentials say about a subject in a text, if any of them says
something. -/
def Ends (word : Credential → Option String) (subject : String) (cs : List Credential) :
    Option String → Prop
  | none => ∀ c ∈ cs, c.subject = subject → word c = none
  | some text => ∃ before c after, cs = before ++ c :: after ∧ c.subject = subject ∧
      word c = some text ∧ ∀ d ∈ after, d.subject = subject → word d = none

theorem ends_lastWord (word : Credential → Option String) (subject : String)
    (cs : List Credential) : Ends word subject cs (lastWord word subject cs) := by
  have one : lastWord word subject cs =
      (cs.filterMap fun c => if c.subject = subject then word c else none).getLast? := by
    simp only [lastWord, List.filterMap_filter, decide_eq_true_eq]
  rw [one]
  cases last : (cs.filterMap fun c => if c.subject = subject then word c else none).getLast? with
  | none =>
    rw [List.getLast?_eq_none_iff, List.filterMap_eq_nil_iff] at last
    exact fun c member => ite_eq_right_iff.mp (last c member)
  | some text =>
    obtain ⟨before, c, after, rfl, spoken, silent⟩ := getLast?_filterMap_eq_some_iff.mp last
    obtain ⟨about, spoken⟩ := Option.ite_none_right_eq_some.mp spoken
    exact ⟨before, c, after, rfl, about, spoken, fun d later => ite_eq_right_iff.mp (silent d later)⟩

end Credential

/-- A decoded credential names nobody by a blank, or with blanks around, whatever way the identifier
took into it. -/
theorem Item.credential?_named {item : Item} {c : Credential} {id : String}
    (decoded : item.credential? = some c) (named : c.names id = true) :
    id ≠ "" ∧ Text.strip id = id := by
  rw [credential?_eq_some_iff, decode] at decoded
  split at decoded
  · cases decoded
  · have ends := (Record.decode_yields decoded).trimmed
    rcases Credential.names_iff.mp named with rfl | rfl
    · exact (ends c.issuer (by simp)).imp_right Text.strip_of_trimmed
    · exact (ends c.subject (by simp)).imp_right Text.strip_of_trimmed

theorem shortLabel_ne_empty {length : Int} {id : String} (something : id ≠ "") :
    shortLabel length id ≠ "" := by
  rw [shortLabel]
  split
  · exact something
  · intro empty
    exact absurd (String.append_eq_empty_iff.mp empty).2 (by decide)

/-- A node shows what was said last about its identity, and defaults where nothing was said. The
role of the root is fixed. -/
structure Node.Latest (naming : Naming) (root : String) (taken : List Credential) (n : Node) :
    Prop where
  role : n.id ≠ root → ∃ said, Credential.Ends Credential.role n.id taken said ∧
    n.role = said.getD naming.defaultRole
  fixed : n.id = root →
    n.role = if naming.rootRole = "" then naming.defaultRole else naming.rootRole
  label : ∃ said, Credential.Ends Credential.displayName n.id taken said ∧
    n.label = some (said.getD (shortLabel naming.labelLength n.id))
  labelled : n.label ≠ none ∧ n.label ≠ some ""
  status : Credential.Ends Credential.status? n.id taken n.status

namespace Graph

variable {naming : Naming} {root : String} {now : Reading} {items : List Item}

theorem built_ids_ne_empty (named : root ≠ "") {id : String}
    (known : id ∈ (built naming root now items).ids) : id ≠ "" := by
  rcases mem_built_ids_iff.mp known with rfl | ⟨c, member, party⟩
  · exact named
  · obtain ⟨item, -, decoded⟩ := List.mem_filterMap.mp member
    exact (Item.credential?_named decoded party).1

theorem built_node_texts {n : Node} (member : n ∈ (built naming root now items).nodes) :
    n.texts = finalTexts naming root (takenFrom items) n.id := by
  have texts : n.texts ∈ (built naming root now items).nodes.map Node.texts :=
    List.mem_map_of_mem member
  rw [built_texts] at texts
  obtain ⟨id, -, same⟩ := List.mem_map.mp texts
  have itself : id = n.id := congrArg Prod.fst same
  rw [← same, itself]

/-- A name that credentials give has something in it. -/
theorem takenFrom_displayName {id text : String}
    (ends : Credential.Ends Credential.displayName id (takenFrom items) (some text)) :
    text ≠ "" := by
  obtain ⟨before, c, after, split, -, spoken, -⟩ := ends
  have taken : c ∈ takenFrom items := by simp [split]
  have filling := (takenFrom_spoken items c taken).displayName
  rw [spoken] at filling
  rintro rfl
  cases filling

theorem built_latest (named : root ≠ "") {n : Node}
    (member : n ∈ (built naming root now items).nodes) :
    n.Latest naming root (takenFrom items) := by
  obtain ⟨-, label, role, status⟩ : _ ∧ _ ∧ _ ∧ _ := by
    simpa only [Node.texts, finalTexts, Prod.mk.injEq] using built_node_texts member
  have name := Credential.ends_lastWord Credential.displayName n.id (takenFrom items)
  refine ⟨fun other => ⟨_, Credential.ends_lastWord .., ?_⟩, fun itself => ?_, ⟨_, name, label⟩,
    ?_, ?_⟩
  · rw [role, if_neg other.symm]
  · rw [role, if_pos itself.symm]
    by_cases empty : naming.rootRole = "" <;> simp [filled, Option.filter_some, empty]
  · rw [label]
    refine ⟨Option.some_ne_none _, fun empty => ?_⟩
    cases last : Credential.lastWord Credential.displayName n.id (takenFrom items) with
    | none =>
      rw [last] at empty
      exact shortLabel_ne_empty (built_ids_ne_empty named (List.mem_map_of_mem member))
        (Option.some.inj empty)
    | some text =>
      rw [last] at empty name
      exact takenFrom_displayName name (Option.some.inj empty)
  · rw [status]
    exact Credential.ends_lastWord ..

/-- The last word counts. Of the credentials in a store, put in order and each key taken once, the
last one about an identity that says anything about its role, its name or its status says what the
graph shows. -/
theorem build_latest {store : Store} {g : Graph} (listed : store.list = .ok items)
    (run : build naming root now store = .ok g) :
    ∃ sorted, Credential.IsChronicle sorted (items.filterMap Item.credential?) ∧
      ∀ n ∈ g.nodes, n.Latest naming root (Credential.firsts sorted) := by
  obtain ⟨named, -, rfl⟩ := build_cases_of_list listed run
  exact ⟨_, Credential.isChronicle_chronicle _, fun n member => built_latest named member⟩

/-- Two memberships of the same identity. The older one gives a name. -/
def reception : List Item :=
  [.record {
      id := .text "2"
      schema := .text "membership"
      issuer := .text "R"
      subject := .text "A"
      attributes := .record [("role", .text "guest")] },
    .record {
      id := .text "1"
      schema := .text "membership"
      issuer := .text "R"
      subject := .text "A"
      attributes := .record [("dt", .text "2020-01-01"), ("role", .text "host"),
        ("name", .text "Ann"), ("verificationStatus", .text "met")] }]

/-- Without a date a credential has the last word, though not about what it leaves out. -/
theorem build_latest_reception :
    ∃ g, (Store.memory reception).list = .ok reception ∧
      build {} "R" .dawn (.memory reception) = .ok g ∧
      (∃ sorted, Credential.IsChronicle sorted (reception.filterMap Item.credential?) ∧
        ∀ n ∈ g.nodes, n.Latest {} "R" (Credential.firsts sorted)) ∧
      g.nodes.map Node.texts =
        [("R", some "R", "organization", none), ("A", some "Ann", "guest", some "met")] := by
  have texts : (build {} "R" .dawn (.memory reception)).map (fun g => g.nodes.map Node.texts) =
      .ok [("R", some "R", "organization", none), ("A", some "Ann", "guest", some "met")] := by
    cbv
  cases run : build {} "R" .dawn (.memory reception) with
  | error fault =>
    rw [run] at texts
    cases texts
  | ok g =>
    rw [run] at texts
    exact ⟨g, rfl, rfl, build_latest rfl run, Except.ok.inj texts⟩

end Graph

end Vouch
