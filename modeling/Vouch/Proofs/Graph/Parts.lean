import Vouch.Proofs.Graph.Marks

namespace Vouch

namespace Ledger

variable {M : Type} {net : Multigraph M} {l part whole : Ledger M}

theorem nodes_eq_map (stored : ∀ entry ∈ l.nodes, entry.2.id = entry.1) :
    l.nodes = l.view.nodes.map fun n => (n.id, n) := by
  have same : ∀ entry ∈ l.nodes, (entry.2.id, entry.2) = entry := fun entry member =>
    Prod.ext (stored entry member) rfl
  rw [view, List.map_map]
  exact ((List.map_congr_left same).trans (List.map_id _)).symm

/-- A part of a ledger, on those of the given identities that it holds. Their nodes are as they were,
and of the edges exactly those are there that stay among them, with the marks that the whole would
give them. Both views of a part are in step again. -/
structure IsPart (net : Multigraph M) (l : Ledger M) (ids : List String) (part : Ledger M) :
    Prop where
  root : part.root = l.root
  defaultRole : part.defaultRole = l.defaultRole
  skipped : part.skipped = l.skipped
  shows : part.view = l.view.restrict ids true
  inStep : part.InStep net
  nodes : part.nodes = l.nodes.filter (·.1 ∈ ids)
  edges : part.edges = (l.mark net).edges.filter fun e => e.source ∈ ids && e.target ∈ ids
  inside : ∀ e ∈ part.edges, e.source ∈ ids ∧ e.target ∈ ids
  complete : ∀ e ∈ l.edges, e.source ∈ ids → e.target ∈ ids →
    ∃ f ∈ part.edges, f.unmarked = e.unmarked

namespace Consistent

theorem isPart (lawful : net.Lawful) (consistent : l.Consistent net)
    (sound : part.Consistent net) {ids : List String}
    (shows : part.view = l.view.restrict ids true) : l.IsPart net ids part where
  root := congrArg Graph.root shows
  defaultRole := congrArg Graph.defaultRole shows
  skipped := congrArg Graph.skipped shows
  shows := shows
  inStep := sound.inStep lawful
  nodes := by
    have kept : part.view.nodes = l.view.nodes.filter (·.id ∈ ids) := congrArg Graph.nodes shows
    rw [nodes_eq_map sound.stored, nodes_eq_map consistent.stored, kept, List.filter_map]
    rfl
  edges := consistent.part_edges lawful shows
  inside e member := by
    rw [consistent.part_edges lawful shows, List.mem_filter] at member
    simpa using member.2
  complete e member source target := by
    have marked : { e with reciprocal := l.isReciprocal net e.source e.target } ∈
        (l.mark net).edges := List.mem_map_of_mem member
    refine ⟨{ e with reciprocal := l.isReciprocal net e.source e.target }, ?_, rfl⟩
    rw [consistent.part_edges lawful shows]
    exact List.mem_filter.mpr ⟨marked, by simp [source, target]⟩

theorem exists_part (lawful : net.Lawful) (consistent : l.Consistent net) (ids : List String) :
    ∃ part, l.restrict net ids true = .ok part ∧ part.Consistent net ∧ l.IsPart net ids part := by
  obtain ⟨part, run, sound, shows⟩ := consistent.restrict lawful ids true
  exact ⟨part, run, sound, consistent.isPart lawful sound shows⟩

/-- What shows the same graph has the same nodes and edges. -/
theorem nodes_edges_eq (consistent : part.Consistent net) (other : whole.Consistent net)
    (same : part.view = whole.view) : part.nodes = whole.nodes ∧ part.edges = whole.edges := by
  refine ⟨?_, congrArg Graph.edges same⟩
  rw [nodes_eq_map consistent.stored, nodes_eq_map other.stored, same]

/-- A restriction to all that is there changes nothing once the marks are settled. -/
theorem restrict_all (lawful : net.Lawful) (consistent : l.Consistent net) {ids : List String}
    (all : l.nodes.map Prod.fst ⊆ ids) :
    ∃ copy, (l.mark net).restrict net ids true = .ok copy ∧ copy.nodes = l.nodes ∧
      copy.edges = (l.mark net).edges := by
  have settled : (l.mark net).Consistent net := consistent.mark lawful
  obtain ⟨copy, run, -, isPart⟩ := settled.exists_part lawful ids
  refine ⟨copy, run, ?_, ?_⟩
  · rw [isPart.nodes]
    refine List.filter_eq_self.mpr fun entry member => ?_
    rw [decide_eq_true_eq]
    exact all (List.mem_map_of_mem member)
  · rw [isPart.edges, mark_mark]
    refine List.filter_eq_self.mpr fun e member => ?_
    have ends := settled.sound.ends e member
    rw [← keys_eq settled.stored] at ends
    rw [Bool.and_eq_true, decide_eq_true_eq, decide_eq_true_eq]
    exact ⟨all ends.1, all ends.2⟩

end Consistent

/-- Whatever has been asked of a ledger, a part of a part of it is what one gets at once from what
was given both times, and the part with all nodes is the ledger itself, freshly marked. -/
theorem run_restrict_restrict (lawful : net.Lawful) (root : String) (builtAt : Option Timestamp)
    (defaultRole : String) (calls : List Call) {ids others both all : List String}
    (made : run net root builtAt defaultRole calls = l)
    (shared : ∀ id, id ∈ both ↔ id ∈ ids ∧ id ∈ others)
    (every : l.nodes.map Prod.fst ⊆ all) :
    ∃ part inner whole copy,
      l.restrict net ids true = .ok part ∧ l.IsPart net ids part ∧
      part.restrict net others true = .ok inner ∧ part.IsPart net others inner ∧
      l.restrict net both true = .ok whole ∧ l.IsPart net both whole ∧
      inner.nodes = whole.nodes ∧ inner.edges = whole.edges ∧ inner.view = whole.view ∧
      (l.mark net).restrict net all true = .ok copy ∧
      copy.nodes = l.nodes ∧ copy.edges = (l.mark net).edges := by
  have consistent : l.Consistent net := by
    rw [← made]
    exact ((blank_consistent lawful root builtAt defaultRole).calls lawful calls).1
  obtain ⟨part, run, outer, isPart⟩ := consistent.exists_part lawful ids
  obtain ⟨inner, again, inmost, isInner⟩ := outer.exists_part lawful others
  obtain ⟨whole, once, direct, isWhole⟩ := consistent.exists_part lawful both
  obtain ⟨copy, copied, nodes, edges⟩ := consistent.restrict_all lawful every
  have same : inner.view = whole.view := by
    rw [isInner.shows, isPart.shows, isWhole.shows, Graph.restrict_restrict, Bool.and_self]
    refine Graph.restrict_congr consistent.sound true fun id _ => ?_
    rw [List.mem_filter, decide_eq_true_eq, shared]
  obtain ⟨sameNodes, sameEdges⟩ := inmost.nodes_edges_eq direct same
  exact ⟨part, inner, whole, copy, run, isPart, again, isInner, once, isWhole, sameNodes, sameEdges,
    same, copied, nodes, edges⟩

theorem run_restrict_restrict_oddMarks :
    Strands.multigraph.Lawful ∧
      (∀ id, id ∈ ["A"] ↔ id ∈ ["A", "X", "R", "A"] ∧ id ∈ ["B", "A", "A"]) ∧
      (run Strands.multigraph "R" none "member" oddMarks).nodes.map Prod.fst ⊆ ["A", "R"] ∧
      ∃ part inner whole,
        (run Strands.multigraph "R" none "member" oddMarks).restrict Strands.multigraph
          ["A", "X", "R", "A"] true = .ok part ∧
        part.restrict Strands.multigraph ["B", "A", "A"] true = .ok inner ∧
        (run Strands.multigraph "R" none "member" oddMarks).restrict Strands.multigraph
          ["A"] true = .ok whole ∧
        inner.view = whole.view ∧ inner.edges = [Graph.arc "A" "A" "3"] := by
  have shared : ∀ id, id ∈ ["A"] ↔ id ∈ ["A", "X", "R", "A"] ∧ id ∈ ["B", "A", "A"] := by
    intro id
    simp only [List.mem_cons, List.not_mem_nil, or_false]
    constructor
    · rintro rfl
      simp
    · rintro ⟨rfl | rfl | rfl | rfl, other⟩ <;> simp at other ⊢
  have every : (run Strands.multigraph "R" none "member" oddMarks).nodes.map Prod.fst ⊆
      ["A", "R"] := by decide +kernel
  obtain ⟨part, inner, whole, -, run, -, again, -, once, isWhole, -, edges, same, -⟩ :=
    run_restrict_restrict Strands.multigraph_lawful "R" none "member" oddMarks rfl shared every
  refine ⟨Strands.multigraph_lawful, shared, every, part, inner, whole, run, again, once, same, ?_⟩
  rw [edges, isWhole.edges]
  decide +kernel

end Ledger

end Vouch
