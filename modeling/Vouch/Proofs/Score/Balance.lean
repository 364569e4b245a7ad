import Vouch.Proofs.Graph.Joined
import Vouch.Proofs.Score.Ball
import Vouch.Proofs.Score.Vouching
import Vouch.Score.Summary

namespace Vouch

/-- A standing agrees with the list of edges, which knows nothing of neighbors. -/
structure Standing.Counts (s : Standing) (g : Graph) (id : String) : Prop where
  incoming : s.incoming = g.edges.countP (·.target = id)
  outgoing : s.outgoing = g.edges.countP (·.source = id)
  issuers : s.issuers = ((g.edges.filter (·.target = id)).map Edge.source).toFinset.card
  issuers_le : s.issuers ≤ s.incoming
  issuers_eq_zero_iff : s.issuers = 0 ↔ s.incoming = 0
  reciprocal : s.reciprocal = (g.edges.filter Edge.reciprocal).countP (·.target = id)
  reciprocal_le : s.reciprocal ≤ s.incoming
  rootIssued_iff : s.rootIssued = true ↔ ∃ e ∈ g.edges, e.source = g.root ∧ e.target = id
  depth_of_rootIssued : s.rootIssued = true → s.depth = some (if id = g.root then 0 else 1)
  depth_lt : ∀ hops, s.depth = some hops → hops < g.nodes.length

namespace Graph

variable {g : Graph} {id : String}

theorem incoming_perm (g : Graph) (id : String) :
    (g.incoming id).Perm (g.edges.filter (·.target = id)) :=
  groupEdges_perm _ _

theorem standing_issuers (g : Graph) (id : String) (depth : Option Nat) :
    (g.standing id depth).issuers =
      ((g.edges.filter (·.target = id)).map Edge.source).toFinset.card := by
  have sources := List.toFinset_eq_of_perm _ _ ((g.incoming_perm id).map Edge.source)
  rw [← sources]
  exact length_eraseDups _

theorem standing_reciprocal (g : Graph) (id : String) (depth : Option Nat) :
    (g.standing id depth).reciprocal =
      (g.edges.filter Edge.reciprocal).countP (·.target = id) := by
  have received := (g.incoming_perm id).countP_eq Edge.reciprocal
  rw [List.countP_filter] at received ⊢
  refine received.trans (List.countP_congr fun e _ => ?_)
  rw [Bool.and_comm]

theorem standing_rootIssued_iff {depth : Option Nat} :
    (g.standing id depth).rootIssued = true ↔
      ∃ e ∈ g.edges, e.source = g.root ∧ e.target = id := by
  simp only [standing, List.any_eq_true, decide_eq_true_eq, (g.incoming_perm id).mem_iff,
    List.mem_filter]
  exact exists_congr fun e => by tauto

/-- What the root has vouched for is one hop away from it, unless it is the root. -/
theorem levelOf_of_rootIssued (sound : g.Sound) {e : Edge} (member : e ∈ g.edges)
    (fromRoot : e.source = g.root) (apart : e.target ≠ g.root) :
    levelOf g.rootLevels e.target = some 1 := by
  have present : g.root ∈ g.ids := fromRoot ▸ (sound.ends e member).1
  have touch : g.Touch g.root e.target := ⟨e, member, Or.inl ⟨fromRoot, rfl⟩⟩
  have chain : g.Chain 1 g.root e.target := (Chain.here g.root).step touch
  have least : g.IsDistance g.root e.target 1 := by
    refine isDistance_iff.mpr ⟨chain, fun j below nearer => ?_⟩
    obtain rfl : j = 0 := by omega
    exact apart (chain_zero_iff.mp nearer).symm
  exact (levelOf_rootLevels sound).mpr ⟨present, least⟩

theorem levelOf_lt_length (sound : g.Sound) {hops : Nat}
    (found : levelOf g.rootLevels id = some hops) : hops < g.nodes.length := by
  obtain ⟨present, least⟩ := (levelOf_rootLevels sound).mp found
  exact least.lt_length sound present

theorem standing_counts (sound : g.Sound) (known : id ∈ g.ids) :
    (g.standing id (levelOf g.rootLevels id)).Counts g id where
  incoming := standing_incoming g id _
  outgoing := standing_outgoing g id _
  issuers := standing_issuers g id _
  issuers_le := by
    have sources := List.toFinset_card_le ((g.incoming id).map Edge.source)
    rw [← length_eraseDups, List.length_map] at sources
    exact sources
  issuers_eq_zero_iff := by
    rw [standing_issuers, standing_incoming, List.countP_eq_length_filter, Finset.card_eq_zero,
      List.toFinset_eq_empty_iff, List.map_eq_nil_iff, List.length_eq_zero_iff]
  reciprocal := standing_reciprocal g id _
  reciprocal_le := List.countP_le_length
  rootIssued_iff := standing_rootIssued_iff
  depth_of_rootIssued issued := by
    obtain ⟨e, member, fromRoot, rfl⟩ := standing_rootIssued_iff.mp issued
    by_cases same : e.target = g.root
    · rw [standing, if_pos same, if_pos same]
    · rw [standing, if_neg same, if_neg same]
      exact levelOf_of_rootIssued sound member fromRoot same
  depth_lt hops far := by
    by_cases same : id = g.root
    · obtain rfl : hops = 0 := by simpa [standing, same] using far.symm
      exact List.length_pos_iff.mpr fun empty => by simp [ids, empty] at known
    · rw [standing, if_neg same] at far
      exact levelOf_lt_length sound far

section

variable {α : Type} [Add α] [Sub α] [Mul α] [Div α] [NatCast α] [LE α] [DecidableLE α]

theorem summary_reciprocal (g : Graph) (w : Weights α) :
    (g.summary w).reciprocal = (g.edges.filter Edge.reciprocal).length := by
  rw [← List.countP_eq_length_filter, summary]
  dsimp only
  split <;> rfl

/-- The standings of all nodes balance: what they received and what they gave are all edges, what is
returned among that is what the summary counts, and each standing agrees with the list of edges. -/
theorem scores_balance (reached : g.Reached) (w : Weights α) :
    ((g.scores w).map (·.standing.incoming)).sum = g.edges.length ∧
      ((g.scores w).map (·.standing.outgoing)).sum = g.edges.length ∧
      ((g.scores w).map (·.standing.reciprocal)).sum = (g.summary w).reciprocal ∧
      ∀ s ∈ g.scores w, s.standing.Counts g s.id := by
  have sound := reached.sound
  have sources : ∀ e ∈ g.edges, e.source ∈ g.ids := fun e member => (sound.ends e member).1
  have targets : ∀ e ∈ g.edges, e.target ∈ g.ids := fun e member => (sound.ends e member).2
  have each : ∀ {β : Type} (f : Standing → β), (g.scores w).map (fun s => f s.standing) =
      g.ids.map fun id => f (g.standing id (levelOf g.rootLevels id)) := by
    intro β f
    rw [scores, ids, List.map_map, List.map_map]
    rfl
  refine ⟨?_, ?_, ?_, fun s member => ?_⟩
  · rw [each (·.incoming), ← sum_countP_eq_length sound Edge.target targets]
    simp only [standing_incoming]
  · rw [each (·.outgoing), ← sum_countP_eq_length sound Edge.source sources]
    simp only [standing_outgoing]
  · have returned : ∀ e ∈ g.edges.filter Edge.reciprocal, e.target ∈ g.ids :=
      fun e member => targets e (List.mem_of_mem_filter member)
    rw [each (·.reciprocal), summary_reciprocal, ← sum_countP_eq_length sound Edge.target returned]
    simp only [standing_reciprocal]
  · obtain ⟨n, node, rfl⟩ := List.mem_map.mp member
    exact standing_counts sound (List.mem_map_of_mem node)

end

/-- The ring with a second credential from the root for the same identity, with all marks made. -/
def braid : Graph := { ring with edges := ring.edges ++ [arc "R" "A" "5"] }.mark

theorem braid_reached : braid.Reached := by
  have doubled := @Reached.addEdge _ _ (arc "R" "A" "5") true ring_reached rfl
  exact doubled.mark

/-- Three of the five edges are returned. Three edges end at the one identity, and two identities
gave them. -/
theorem scores_balance_braid :
    braid.Reached ∧
      ((braid.scores ({} : Settings).weights).map (·.standing.incoming)).sum = 5 ∧
      ((braid.scores ({} : Settings).weights).map (·.standing.reciprocal)).sum = 3 ∧
      ∀ s ∈ braid.scores ({} : Settings).weights, s.id = "A" → s.standing.Counts braid "A" ∧
        s.standing.incoming = 3 ∧ s.standing.issuers = 2 ∧ s.standing.depth = some 1 := by
  obtain ⟨received, _, returned, counts⟩ := scores_balance braid_reached ({} : Settings).weights
  refine ⟨braid_reached, received, ?_, fun s member same => ?_⟩
  · rw [returned, summary_reciprocal]
    decide
  · have standing := counts s member
    rw [same] at standing
    have issued : s.standing.rootIssued = true := standing.rootIssued_iff.mpr (by decide)
    refine ⟨standing, ?_, ?_, standing.depth_of_rootIssued issued⟩
    · rw [standing.incoming]
      decide
    · rw [standing.issuers]
      decide

end Graph

end Vouch
