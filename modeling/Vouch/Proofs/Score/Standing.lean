import Vouch.Proofs.Graph.Touching
import Vouch.Proofs.Score.Topology

namespace Vouch

/-- One standing is nowhere below another one: no count is less, what is within reach of the root is
no further from it, and a credential of the root is not missing. -/
structure Standing.AtLeast (t s : Standing) : Prop where
  incoming : s.incoming ≤ t.incoming
  outgoing : s.outgoing ≤ t.outgoing
  issuers : s.issuers ≤ t.issuers
  reciprocal : s.reciprocal ≤ t.reciprocal
  depth : ∀ far, s.depth = some far → ∃ near ≤ far, t.depth = some near
  rootIssued : s.rootIssued = true → t.rootIssued = true

/-- Two standings have all in common but perhaps the distance from the root. -/
def Standing.SameUpToDepth (s t : Standing) : Prop := { s with depth := t.depth } = t

namespace Graph

variable {g g' : Graph} {id : String}

theorem incoming_ends (g : Graph) (id : String) :
    ((g.incoming id).map Edge.ends).Perm ((g.edges.map Edge.ends).filter (·.2 = id)) := by
  rw [List.filter_map]
  exact (groupEdges_perm _ _).map _

theorem outgoing_ends (g : Graph) (id : String) :
    ((g.outgoing id).map Edge.ends).Perm ((g.edges.map Edge.ends).filter (·.1 = id)) := by
  rw [List.filter_map]
  exact (groupEdges_perm _ _).map _

theorem target_of_mem_incoming {e : Edge} (member : e ∈ g.incoming id) : e.target = id := by
  simpa using (List.mem_filter.mp ((groupEdges_perm _ _).mem_iff.mp member)).2

theorem links_of_mem_incoming {e : Edge} (member : e ∈ g.incoming id) :
    g.links e.source id = true := by
  have inside := List.mem_of_mem_filter ((groupEdges_perm _ _).mem_iff.mp member)
  rw [links_iff, ← target_of_mem_incoming member]
  exact List.mem_map_of_mem inside

theorem Marked.reciprocal_eq (marked : g.Marked) (id : String) :
    (g.incoming id).countP Edge.reciprocal =
      ((g.incoming id).map Edge.ends).countP fun x => g.isReciprocal x.1 x.2 := by
  rw [List.countP_map]
  refine List.countP_congr fun e member => ?_
  have inside : e ∈ g.edges := List.mem_of_mem_filter ((groupEdges_perm _ _).mem_iff.mp member)
  rw [marked e inside]
  rfl

theorem AgreesOn.standing_eq (agrees : g.AgreesOn g' id) (depth : Option Nat) :
    g.standing id depth = g'.standing id depth := by
  simp only [standing, incoming_eq, outgoing_eq, agrees.touching, agrees.root]

/-- The depth that is looked up for the root itself is the one that its standing has anyway. -/
theorem standing_depth (g : Graph) (id : String) :
    (g.standing id (g.depthOf id)).depth = g.depthOf id := by
  simp only [standing, depthOf]
  split <;> rfl

namespace Embeds

theorem incoming_subperm (embeds : g'.Embeds g) (id : String) :
    ((g.incoming id).map Edge.ends).Subperm ((g'.incoming id).map Edge.ends) :=
  ((g.incoming_ends id).subperm_right.mpr (embeds.ends.filter _)).trans
    (g'.incoming_ends id).symm.subperm

theorem outgoing_subperm (embeds : g'.Embeds g) (id : String) :
    ((g.outgoing id).map Edge.ends).Subperm ((g'.outgoing id).map Edge.ends) :=
  ((g.outgoing_ends id).subperm_right.mpr (embeds.ends.filter _)).trans
    (g'.outgoing_ends id).symm.subperm

theorem incoming_sources (embeds : g'.Embeds g) (id : String) :
    (g.incoming id).map Edge.source ⊆ (g'.incoming id).map Edge.source := by
  have sources : ∀ h : Graph, (h.incoming id).map Edge.source =
      ((h.incoming id).map Edge.ends).map Prod.fst := fun h => by
    rw [List.map_map]
    rfl
  rw [sources, sources]
  exact List.map_subset _ (embeds.incoming_subperm id).subset

theorem issuers_le (embeds : g'.Embeds g) (id : String) :
    ((g.incoming id).map Edge.source).eraseDups.length ≤
      ((g'.incoming id).map Edge.source).eraseDups.length := by
  refine ((eraseDups_nodup _).subperm fun a member => ?_).length_le
  rw [List.mem_eraseDups] at member ⊢
  exact embeds.incoming_sources id member

theorem reciprocal_le (embeds : g'.Embeds g) (id : String) :
    (g.incoming id).countP Edge.reciprocal ≤ (g'.incoming id).countP Edge.reciprocal := by
  rw [embeds.marked.reciprocal_eq, embeds.marked'.reciprocal_eq]
  calc ((g.incoming id).map Edge.ends).countP (fun x => g.isReciprocal x.1 x.2)
      ≤ ((g.incoming id).map Edge.ends).countP (fun x => g'.isReciprocal x.1 x.2) :=
        List.countP_mono_left fun _ _ => embeds.isReciprocal
    _ ≤ ((g'.incoming id).map Edge.ends).countP (fun x => g'.isReciprocal x.1 x.2) :=
        (embeds.incoming_subperm id).countP_le _

theorem rootIssued (embeds : g'.Embeds g) (id : String)
    (issued : ((g.incoming id).any fun e => e.source = g.root) = true) :
    ((g'.incoming id).any fun e => e.source = g'.root) = true := by
  simp only [List.any_eq_true, decide_eq_true_eq] at issued ⊢
  obtain ⟨e, member, fromRoot⟩ := issued
  obtain ⟨f, member', same⟩ :=
    List.mem_map.mp (embeds.incoming_sources id (List.mem_map_of_mem member))
  exact ⟨f, member', by rw [same, fromRoot, embeds.root]⟩

/-- An identity stands in no way lower in a graph that embeds another one. -/
theorem standing_atLeast (embeds : g'.Embeds g) (sound : g.Sound) (sound' : g'.Sound)
    (id : String) :
    (g'.standing id (g'.depthOf id)).AtLeast (g.standing id (g.depthOf id)) where
  incoming := by simpa [standing] using (embeds.incoming_subperm id).length_le
  outgoing := by simpa [standing] using (embeds.outgoing_subperm id).length_le
  issuers := embeds.issuers_le id
  reciprocal := embeds.reciprocal_le id
  depth := by
    rw [standing_depth, standing_depth]
    exact fun _ => embeds.exists_depthOf_le sound sound'
  rootIssued := embeds.rootIssued id

end Embeds

theorem node?_eq_some_iff (sound : g.Sound) {n : Node} :
    g.node? id = some n ↔ n ∈ g.nodes ∧ n.id = id := by
  constructor
  · exact fun found => ⟨List.mem_of_find?_eq_some found, node?_id found⟩
  · rintro ⟨member, rfl⟩
    obtain ⟨m, found⟩ := exists_node? (List.mem_map_of_mem member)
    have same := List.inj_on_of_nodup_map sound.ids_nodup (List.mem_of_find?_eq_some found) member
      (node?_id found)
    rw [found, same]

section

variable {α : Type} [Add α] [Sub α] [Mul α] [NatCast α]

/-- One search for all identities gives each of them the score that a search for it alone gives. -/
theorem scores_eq (sound : g.Sound) (w : Weights α) :
    g.scores w = g.nodes.map fun n => g.score w n.id := by
  rw [scores]
  refine List.map_congr_left fun n member => ?_
  have known : n.id ∈ g.ids := List.mem_map_of_mem member
  simp only [score, (node?_eq_some_iff sound).mpr ⟨member, rfl⟩,
    depthOf_eq_levelOf sound fun _ => known]

theorem score_mem_scores (sound : g.Sound) (known : id ∈ g.ids) (w : Weights α) :
    g.score w id ∈ g.scores w := by
  obtain ⟨n, member, rfl⟩ := List.mem_map.mp known
  rw [scores_eq sound]
  exact List.mem_map_of_mem member

theorem score_id (g : Graph) (w : Weights α) (id : String) : (g.score w id).id = id := by
  rw [score]
  cases found : g.node? id with
  | none => rfl
  | some n => exact node?_id found

theorem exists_score_eq (known : id ∈ g.ids) (w : Weights α) :
    ∃ n, g.node? id = some n ∧ g.score w id = n.score w (g.standing id (g.depthOf id)) := by
  obtain ⟨n, found⟩ := exists_node? known
  refine ⟨n, found, ?_⟩
  rw [score, found]

theorem score_standing (known : id ∈ g.ids) (w : Weights α) :
    (g.score w id).standing = g.standing id (g.depthOf id) := by
  obtain ⟨n, _, same⟩ := exists_score_eq known w
  rw [same, Node.score]

namespace AgreesOn

/-- Where graphs agree on an identity, nothing but distances can tell its scores apart. -/
theorem score_sameUpToDepth (agrees : g.AgreesOn g' id) (w : Weights α) :
    (g.score w id).standing.SameUpToDepth (g'.score w id).standing := by
  rw [score, score, agrees.node]
  cases g'.node? id with
  | none => rfl
  | some n =>
    simp only [Node.score, agrees.standing_eq]
    rfl

theorem depthOf_eq (sound : g.Sound) (sound' : g'.Sound) (present : g.root ∈ g.ids)
    (present' : g'.root ∈ g'.ids)
    (agrees : ∀ other hops, g.Chain hops id other → g.AgreesOn g' other) :
    g.depthOf id = g'.depthOf id := by
  have root := (agrees id 0 (.here id)).root
  have distance : ∀ n, g.IsDistance id g.root n ↔ g'.IsDistance id g'.root n := fun n => by
    simp only [isDistance_iff, chain_iff agrees, root]
  refine Option.ext fun n => ?_
  rw [depthOf_eq_some_iff sound present, depthOf_eq_some_iff sound' present']
  exact ⟨fun least => ((distance n).mp least.symm).symm,
    fun least => ((distance n).mpr least.symm).symm⟩

/-- A score is the same where graphs agree on all that the identity can reach. -/
theorem score_eq (sound : g.Sound) (sound' : g'.Sound) (present : g.root ∈ g.ids)
    (present' : g'.root ∈ g'.ids)
    (agrees : ∀ other hops, g.Chain hops id other → g.AgreesOn g' other) (w : Weights α) :
    g.score w id = g'.score w id := by
  have here := agrees id 0 (.here id)
  rw [score, score, here.node, here.standing_eq, depthOf_eq sound sound' present present' agrees]

end AgreesOn

end

end Graph

end Vouch
