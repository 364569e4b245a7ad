import Vouch.Proofs.Graph.Ledger

namespace Vouch

namespace Ledger

variable {M : Type} {net : Multigraph M} {l : Ledger M}

/-- What both views of a graph promise about each other. Nodes go by their own identifiers, edges
run between nodes and have keys of their own, and a question that is put to the multigraph gets the
answer that the list of the edges gives. -/
structure InStep (net : Multigraph M) (l : Ledger M) : Prop where
  stored : ∀ entry ∈ l.nodes, entry.2.id = entry.1
  ids_nodup : (l.nodes.map Prod.fst).Nodup
  ends : ∀ e ∈ l.edges, l.holds e.source = true ∧ l.holds e.target = true
  keys_nodup : (l.edges.map Edge.key).Nodup
  hasEdge_iff : ∀ key, l.hasEdge net key = true ↔ ∃ e ∈ l.edges, e.key = key
  incoming : ∀ id, (l.incoming net id).Perm (l.edges.filter (·.target = id))
  outgoing : ∀ id, (l.outgoing net id).Perm (l.edges.filter (·.source = id))
  unknown : ∀ id, l.holds id = false → l.incoming net id = [] ∧ l.outgoing net id = []
  neighbors_symm : ∀ a b, b ∈ net.neighbors l.topology a ↔ a ∈ net.neighbors l.topology b
  neighbors_iff : ∀ a b, b ∈ net.neighbors l.topology a ↔
    ∃ e ∈ l.edges, e.source = a ∧ e.target = b ∨ e.source = b ∧ e.target = a

/-- Both kinds of graphs give the same answers, up to the order in which the edges at one identity
come. -/
structure Mirrors (net : Multigraph M) (l : Ledger M) (g : Graph) : Prop where
  view : l.view = g
  hasEdge : ∀ key, l.hasEdge net key = g.hasEdge key
  incoming : ∀ id, (l.incoming net id).Perm (g.incoming id)
  outgoing : ∀ id, (l.outgoing net id).Perm (g.outgoing id)
  neighbors : ∀ a b, b ∈ net.neighbors l.topology a ↔ b ∈ g.neighbors a

namespace Consistent

/-- What is looked up at the places of an identity are its edges. An unknown one has none. -/
theorem edgesAt_perm (consistent : l.Consistent net) {endpoint : Edge → String}
    (node : ∀ e ∈ l.edges, endpoint e ∈ l.view.ids) {numbers : List Nat} {id : String}
    (perm : numbers.Perm (places (endpoint · = id) l.edges)) :
    (if net.hasNode l.topology id then l.edgesAt numbers else []).Perm
      (l.edges.filter (endpoint · = id)) := by
  split
  · rw [← filterMap_places, edgesAt]
    exact perm.filterMap _
  · rename_i unknown
    rw [consistent.hasNode_iff] at unknown
    have none : l.edges.filter (endpoint · = id) = [] := by
      rw [List.filter_eq_nil_iff]
      intro e member same
      rw [decide_eq_true_eq] at same
      exact unknown (same ▸ node e member)
    rw [none]

theorem incoming_perm (consistent : l.Consistent net) (id : String) :
    (l.incoming net id).Perm (l.edges.filter (·.target = id)) :=
  consistent.edgesAt_perm (fun e member => (consistent.sound.ends e member).2)
    (consistent.incoming id)

theorem outgoing_perm (consistent : l.Consistent net) (id : String) :
    (l.outgoing net id).Perm (l.edges.filter (·.source = id)) :=
  consistent.edgesAt_perm (fun e member => (consistent.sound.ends e member).1)
    (consistent.outgoing id)

theorem inStep (lawful : net.Lawful) (consistent : l.Consistent net) : l.InStep net where
  stored := consistent.stored
  ids_nodup := by
    rw [keys_eq consistent.stored]
    exact consistent.sound.ids_nodup
  ends e member := by
    rw [consistent.holds_iff, consistent.holds_iff]
    exact consistent.sound.ends e member
  keys_nodup := consistent.sound.keys_nodup
  hasEdge_iff key := by
    rw [Ledger.hasEdge, consistent.hasEdge_iff, List.mem_map]
  incoming := consistent.incoming_perm
  outgoing := consistent.outgoing_perm
  unknown id absent := by
    have node : ¬ net.hasNode l.topology id = true := by
      rw [consistent.hasNode_iff, ← consistent.holds_iff, absent]
      exact Bool.false_ne_true
    exact ⟨if_neg node, if_neg node⟩
  neighbors_symm a b := by
    rw [lawful.mem_neighbors_iff, lawful.mem_neighbors_iff, or_comm]
  neighbors_iff a b := consistent.mem_neighbors_iff lawful

theorem mirrors (lawful : net.Lawful) (consistent : l.Consistent net) :
    l.Mirrors net l.view where
  view := rfl
  hasEdge := consistent.hasEdge_eq
  incoming id := (consistent.incoming_perm id).trans (groupEdges_perm _ _).symm
  outgoing id := (consistent.outgoing_perm id).trans (groupEdges_perm _ _).symm
  neighbors a b := by
    rw [consistent.mem_neighbors_iff lawful, Graph.neighbors, List.mem_mergeSort,
      List.mem_eraseDups, Graph.mem_beside_iff]
    simp

end Consistent

/-- After any calls both views of a ledger are in step, and it mirrors the graph that the same calls
make. -/
theorem run_inStep (lawful : net.Lawful) (root : String) (builtAt : Option Timestamp)
    (defaultRole : String) (calls : List Call) :
    (run net root builtAt defaultRole calls).InStep net ∧
      (run net root builtAt defaultRole calls).Mirrors net
        (calls.foldl Graph.call { root, builtAt, defaultRole }) := by
  have blank := blank_consistent lawful root builtAt defaultRole
  obtain ⟨consistent, shown⟩ := blank.calls lawful calls
  have mirrors := consistent.mirrors lawful
  rw [shown] at mirrors
  exact ⟨consistent.inStep lawful, mirrors⟩

/-- An edge, the same once more, one to nobody, one back and one beside them, and of all that what
lies around one of the identities. -/
def errands : List Call :=
  [.addNode "R" {}, .addNode "A" {}, .addNode "B" {}, .addEdge (Graph.arc "R" "A" "1"),
    .addEdge (Graph.arc "R" "A" "1"), .addEdge (Graph.arc "A" "X" "2"),
    .addEdge (Graph.arc "A" "R" "3"), .addEdge (Graph.arc "B" "B" "4"), .mark,
    .restrict ["A", "R", "X"] true, .addNode "C" {}, .addEdge (Graph.arc "C" "C" "5"),
    .neighborhood {} "A" 1]

theorem run_inStep_errands :
    Strands.multigraph.Lawful ∧
      (run Strands.multigraph "R" none "member" errands).InStep Strands.multigraph ∧
      (run Strands.multigraph "R" none "member" errands).edges.map Edge.key =
        [("R", "A", "1"), ("A", "R", "3")] ∧
      (run Strands.multigraph "R" none "member" errands).hasEdge Strands.multigraph
        ("A", "R", "3") = true := by
  have keys : (run Strands.multigraph "R" none "member" errands).edges.map Edge.key =
      [("R", "A", "1"), ("A", "R", "3")] := by decide +kernel
  obtain ⟨inStep, _⟩ := run_inStep Strands.multigraph_lawful "R" none "member" errands
  refine ⟨Strands.multigraph_lawful, inStep, keys, ?_⟩
  rw [inStep.hasEdge_iff, ← List.mem_map, keys]
  simp

end Ledger

namespace Graph

theorem Reached.call {g : Graph} (reached : g.Reached) (c : Call) : (g.call c).Reached := by
  cases c with
  | addNode id m => exact reached.addNode id m
  | addEdge e =>
    simp only [Graph.call]
    split
    · rename_i run
      exact reached.addEdge run
    · exact reached
  | mark => exact reached.mark
  | restrict ids withEdges => exact reached.restrict ids withEdges
  | neighborhood naming id depth =>
    simp only [Graph.call]
    split
    · rename_i run
      exact reached.neighborhood run
    · exact reached
  | fillLabels naming => exact reached.fillLabels naming
  | stamp builtAt skipped => exact reached.stamp builtAt skipped

theorem Reached.calls {g : Graph} (reached : g.Reached) (calls : List Call) :
    (calls.foldl Graph.call g).Reached := by
  induction calls generalizing g with
  | nil => exact reached
  | cons c calls ih => exact ih (reached.call c)

/-- The graphs that can come about are those that calls make. -/
theorem reached_iff_calls {g : Graph} :
    g.Reached ↔ ∃ root builtAt defaultRole, ∃ calls : List Call,
      calls.foldl Graph.call { root, builtAt, defaultRole } = g := by
  constructor
  · have more : ∀ {g g' : Graph} (c : Call), g.call c = g' →
        (∃ root builtAt defaultRole, ∃ calls : List Call,
          calls.foldl Graph.call { root, builtAt, defaultRole } = g) →
        ∃ root builtAt defaultRole, ∃ calls : List Call,
          calls.foldl Graph.call { root, builtAt, defaultRole } = g' := by
      rintro g g' c made ⟨root, builtAt, defaultRole, calls, rfl⟩
      exact ⟨root, builtAt, defaultRole, calls ++ [c], by rw [List.foldl_concat, made]⟩
    intro reached
    induction reached with
    | empty root builtAt defaultRole => exact ⟨root, builtAt, defaultRole, [], rfl⟩
    | addNode id m _ ih => exact more (.addNode id m) rfl ih
    | @addEdge _ _ e _ _ run ih => exact more (.addEdge e) (by simp only [Graph.call, run]) ih
    | mark _ ih => exact more .mark rfl ih
    | restrict ids withEdges _ ih => exact more (.restrict ids withEdges) rfl ih
    | @neighborhood _ _ naming id depth _ run ih =>
      exact more (.neighborhood naming id depth) (by simp only [Graph.call, run]) ih
    | fillLabels naming _ ih => exact more (.fillLabels naming) rfl ih
    | stamp builtAt skipped _ ih => exact more (.stamp builtAt skipped) rfl ih
  · rintro ⟨root, builtAt, defaultRole, calls, rfl⟩
    exact (Reached.empty root builtAt defaultRole).calls calls

/-- Every graph that can come about is mirrored by a ledger, whatever the multigraph in it. -/
theorem Reached.exists_mirrors {M : Type} {net : Multigraph M} (lawful : net.Lawful) {g : Graph}
    (reached : g.Reached) : ∃ l : Ledger M, l.Consistent net ∧ l.Mirrors net g := by
  obtain ⟨root, builtAt, defaultRole, calls, rfl⟩ := reached_iff_calls.mp reached
  obtain ⟨consistent, shown⟩ :=
    (Ledger.blank_consistent lawful root builtAt defaultRole).calls lawful calls
  have mirrors := consistent.mirrors lawful
  rw [shown] at mirrors
  exact ⟨_, consistent, mirrors⟩

end Graph

end Vouch
