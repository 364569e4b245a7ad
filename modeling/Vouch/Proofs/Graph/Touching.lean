import Mathlib.Data.List.Perm.Subperm
import Vouch.Proofs.Graph.Gain
import Vouch.Proofs.Graph.Meeting

namespace Vouch

namespace Graph

variable {g g' : Graph} {id : String}

/-- The edges that start or end at an identity. -/
def touching (g : Graph) (id : String) : List Edge :=
  g.edges.filter fun e => e.source = id || e.target = id

theorem incoming_eq (g : Graph) (id : String) :
    g.incoming id = groupEdges Edge.source ((g.touching id).filter (·.target = id)) := by
  have kept : (g.touching id).filter (·.target = id) = g.edges.filter (·.target = id) := by
    rw [touching, List.filter_filter]
    refine List.filter_congr fun e _ => ?_
    by_cases ends : e.target = id <;> simp [ends]
  rw [kept, incoming]

theorem outgoing_eq (g : Graph) (id : String) :
    g.outgoing id = groupEdges Edge.target ((g.touching id).filter (·.source = id)) := by
  have kept : (g.touching id).filter (·.source = id) = g.edges.filter (·.source = id) := by
    rw [touching, List.filter_filter]
    refine List.filter_congr fun e _ => ?_
    by_cases starts : e.source = id <;> simp [starts]
  rw [kept, outgoing]

theorem touch_iff_touching {a b : String} :
    g.Touch a b ↔ ∃ e ∈ g.touching a, e.source = a ∧ e.target = b ∨ e.source = b ∧ e.target = a := by
  refine exists_congr fun e => ?_
  rw [touching, List.mem_filter, and_assoc]
  refine and_congr_right fun _ => (and_iff_right_of_imp ?_).symm
  rintro (⟨rfl, _⟩ | ⟨_, rfl⟩) <;> simp

/-- Two graphs with the same root agree on an identity: its node is the same in both, and so are the
edges that start or end at it, in their order and with their marks. -/
structure AgreesOn (g g' : Graph) (id : String) : Prop where
  root : g.root = g'.root
  node : g.node? id = g'.node? id
  touching : g.touching id = g'.touching id

namespace AgreesOn

theorem touch_iff {a b : String} (agrees : g.AgreesOn g' a) : g.Touch a b ↔ g'.Touch a b := by
  rw [touch_iff_touching, touch_iff_touching, agrees.touching]

/-- Chains from an identity stay the same where the graphs agree on all that it can reach. What is
elsewhere in the graphs does not matter. -/
theorem chain_iff {a b : String} {n : Nat}
    (agrees : ∀ x m, g.Chain m a x → g.AgreesOn g' x) : g.Chain n a b ↔ g'.Chain n a b := by
  constructor
  · intro chain
    induction chain with
    | here a => exact .here a
    | @step a b c n front last ih =>
      exact (ih agrees).step ((agrees b n front).touch_iff.mp last)
  · intro chain
    induction chain with
    | here a => exact .here a
    | @step a b c n _ last ih =>
      have front := ih agrees
      exact front.step ((agrees b n front).touch_iff.mpr last)

end AgreesOn

/-- A graph embeds another one: it has all of its nodes, and counterparts of all of its edges. The
marks of both are up to date. -/
structure Embeds (g' g : Graph) : Prop where
  root : g'.root = g.root
  ids : g.ids ⊆ g'.ids
  ends : (g.edges.map Edge.ends).Subperm (g'.edges.map Edge.ends)
  marked : g.Marked
  marked' : g'.Marked

namespace Embeds

variable {a b : String}

theorem links (embeds : g'.Embeds g) (linked : g.links a b = true) : g'.links a b = true := by
  rw [links_iff] at linked ⊢
  exact embeds.ends.subset linked

theorem isReciprocal (embeds : g'.Embeds g) (returned : g.isReciprocal a b = true) :
    g'.isReciprocal a b = true := by
  rw [Graph.isReciprocal, Bool.and_eq_true, Bool.and_eq_true] at returned ⊢
  obtain ⟨⟨different, forth⟩, back⟩ := returned
  exact ⟨⟨different, embeds.links forth⟩, embeds.links back⟩

theorem chain (embeds : g'.Embeds g) {n : Nat} (chain : g.Chain n a b) : g'.Chain n a b := by
  refine chain.of_touch fun a b touch => ?_
  rw [touch_iff] at touch ⊢
  exact touch.imp embeds.links embeds.links

/-- Whatever is within reach of the root is no further from it in a graph that embeds the first. -/
theorem exists_depthOf_le (embeds : g'.Embeds g) (sound : g.Sound) (sound' : g'.Sound) {far : Nat}
    (reached : g.depthOf id = some far) : ∃ near ≤ far, g'.depthOf id = some near := by
  by_cases itself : id = g.root
  · have here : g'.depthOf id = some 0 := by rw [depthOf, if_pos (itself.trans embeds.root.symm)]
    exact ⟨0, Nat.zero_le _, here⟩
  · -- Without its root a graph gives no depth to anybody else.
    have present : g.root ∈ g.ids := by
      by_contra absent
      rw [depthOf, if_neg itself, if_pos (by simp [hasNode_iff.not.mpr absent])] at reached
      cases reached
    have least := (depthOf_eq_some_iff sound present).mp reached
    obtain ⟨near, bound, least'⟩ := (embeds.chain least.chain).exists_isDistance
    rw [← embeds.root] at least' present
    exact ⟨near, bound, (depthOf_eq_some_iff sound' (embeds.ids present)).mpr least'⟩

end Embeds

end Graph

end Vouch
