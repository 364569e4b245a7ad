import Vouch.Proofs.Graph.Latest
import Vouch.Proofs.Graph.Survival

namespace Vouch

namespace Graph

/-- Every identity has a name and one node, blanks around its identifier apart, and what is issued by
the root or to it hangs on the node of the root. -/
structure OneNodeEach (g : Graph) (cs : List Credential) : Prop where
  named : ∀ id ∈ g.ids, Text.strip id ≠ ""
  apart : ∀ a ∈ g.ids, ∀ b ∈ g.ids, Text.strip a = Text.strip b → a = b
  attached : ∀ c ∈ cs, ∃ e ∈ g.edges, e.credential = c.id ∧
    Text.strip e.source = Text.strip c.issuer ∧ Text.strip e.target = Text.strip c.subject ∧
    (Text.strip c.issuer = Text.strip g.root → e.source = g.root) ∧
    (Text.strip c.subject = Text.strip g.root → e.target = g.root)

variable {naming : Naming} {root : String} {now : Reading} {items : List Item}

theorem exists_built_edge {c : Credential} (member : c ∈ items.filterMap Item.credential?) :
    ∃ e ∈ (built naming root now items).edges,
      e.source = c.issuer ∧ e.target = c.subject ∧ e.credential = c.id := by
  obtain ⟨item, inside, decoded⟩ := List.mem_filterMap.mp member
  have linked : (built naming root now items).hasEdge c.key = true :=
    built_hasEdge inside (Item.credential?_eq_some_iff.mp decoded)
  obtain ⟨e, drawn, key⟩ := List.mem_map.mp (hasEdge_iff.mp linked)
  exact ⟨e, drawn, by simpa [Edge.key, Credential.key] using key⟩

/-- No credential names the root without the blanks that it was given with. -/
def RootAlone (root : String) (cs : List Credential) : Prop :=
  Text.strip root = root ∨ ∀ c ∈ cs, c.names (Text.strip root) = false

theorem strip_of_names {c : Credential} {id : String}
    (member : c ∈ items.filterMap Item.credential?) (named : c.names id = true) :
    id ≠ "" ∧ Text.strip id = id := by
  obtain ⟨item, -, decoded⟩ := List.mem_filterMap.mp member
  exact Item.credential?_named decoded named

theorem RootAlone.eq_root (alone : RootAlone root (items.filterMap Item.credential?))
    {c : Credential} {id : String} (member : c ∈ items.filterMap Item.credential?)
    (named : c.names id = true) (alike : Text.strip id = Text.strip root) : id = root := by
  have tight : id = Text.strip root := (strip_of_names member named).2.symm.trans alike
  rcases alone with plain | nobody
  · exact tight.trans plain
  · rw [tight, nobody c member] at named
    cases named

theorem RootAlone.eq_of_strip_eq (alone : RootAlone root (items.filterMap Item.credential?))
    {a b : String} (first : a ∈ (built naming root now items).ids)
    (second : b ∈ (built naming root now items).ids) (alike : Text.strip a = Text.strip b) :
    a = b := by
  rcases mem_built_ids_iff.mp first with rfl | ⟨c, member, named⟩
  · rcases mem_built_ids_iff.mp second with rfl | ⟨d, other, named'⟩
    · rfl
    · exact (alone.eq_root other named' alike.symm).symm
  · rcases mem_built_ids_iff.mp second with rfl | ⟨d, other, named'⟩
    · exact alone.eq_root member named alike
    · rwa [(strip_of_names member named).2, (strip_of_names other named').2] at alike

theorem built_oneNodeEach_iff :
    (built naming root now items).OneNodeEach (items.filterMap Item.credential?) ↔
      Text.strip root ≠ "" ∧ RootAlone root (items.filterMap Item.credential?) := by
  have seeded : root ∈ (built naming root now items).ids := root_mem_built_ids
  constructor
  · intro each
    refine ⟨each.named root seeded, or_iff_not_imp_left.mpr fun blanks c member => ?_⟩
    refine Bool.eq_false_iff.mpr fun named => blanks ?_
    have second : Text.strip root ∈ (built naming root now items).ids :=
      mem_built_ids_iff.mpr (Or.inr ⟨c, member, named⟩)
    exact each.apart _ second _ seeded (Text.strip_strip root)
  · rintro ⟨something, alone⟩
    refine ⟨fun id known => ?_, fun a first b second => alone.eq_of_strip_eq first second,
      fun c member => ?_⟩
    · rcases mem_built_ids_iff.mp known with rfl | ⟨c, member, named⟩
      · exact something
      · obtain ⟨filled, tight⟩ := strip_of_names member named
        rwa [tight]
    · obtain ⟨e, drawn, source, target, credential⟩ :=
        @exists_built_edge naming root now items c member
      refine ⟨e, drawn, credential, by rw [source], by rw [target], fun issued => ?_, fun given => ?_⟩
      · exact source.trans (alone.eq_root member (by simp [Credential.names]) issued)
      · exact target.trans (alone.eq_root member (by simp [Credential.names]) given)

/-- Identities have one node each exactly if the root has a name, and no credential names the root
otherwise than it was given. What decoded credentials name, they name without blanks around it. -/
theorem build_oneNodeEach_iff {store : Store} {g : Graph} (listed : store.list = .ok items)
    (run : build naming root now store = .ok g) :
    g.OneNodeEach (items.filterMap Item.credential?) ↔
      Text.strip root ≠ "" ∧ RootAlone root (items.filterMap Item.credential?) := by
  obtain ⟨-, -, rfl⟩ := build_cases_of_list listed run
  exact built_oneNodeEach_iff

/-- A membership whose parties are written with blanks around, the one in a field and the other in
an attribute. -/
def spaced : List Item :=
  [.record {
    id := .text "1"
    schema := .text "membership"
    issuer := .text " R\n"
    attributes := .record [("i", .text "\tA ")] }]

theorem build_oneNodeEach_iff_spaced :
    ∃ g, (Store.memory spaced).list = .ok spaced ∧
      build {} "R" .dawn (.memory spaced) = .ok g ∧
      g.OneNodeEach (spaced.filterMap Item.credential?) ∧
      g.ids = ["R", "A"] ∧ g.edges.map Edge.key = [("R", "A", "1")] := by
  have shown : (build {} "R" .dawn (.memory spaced)).map
      (fun g => (g.ids, g.edges.map Edge.key)) = .ok (["R", "A"], [("R", "A", "1")]) := by
    cbv
  cases run : build {} "R" .dawn (.memory spaced) with
  | error fault =>
    rw [run] at shown
    cases shown
  | ok g =>
    rw [run] at shown
    obtain ⟨ids, edges⟩ := Prod.mk.inj (Except.ok.inj shown)
    have each := (build_oneNodeEach_iff rfl run).mpr ⟨by decide +kernel, Or.inl (by decide +kernel)⟩
    exact ⟨g, rfl, rfl, each, ids, edges⟩

/-- A root that is given with a blank stands beside the one that issues the credentials. -/
theorem not_build_oneNodeEach :
    ¬ ∀ naming root now store items g, store.list = .ok items →
      build naming root now store = .ok g →
        g.OneNodeEach (items.filterMap Item.credential?) := by
  intro each
  have run : build {} " R" .dawn (.memory [.joining []]) =
      .ok (built {} " R" .dawn [.joining []]) :=
    build_eq_built (by decide) rfl joining_inside
  obtain ⟨-, plain | nobody⟩ := built_oneNodeEach_iff.mp (each _ _ _ _ _ _ rfl run)
  · exact absurd plain (by decide +kernel)
  · revert nobody
    decide +kernel

end Graph

end Vouch
