import Vouch.Proofs.Graph.Nested
import Vouch.Proofs.Graph.Tally

namespace Vouch

namespace Graph

/-- Every edge is marked as reciprocal if it is, and not otherwise. -/
def Marked (g : Graph) : Prop := ∀ e ∈ g.edges, e.reciprocal = g.isReciprocal e.source e.target

theorem mark_marked (g : Graph) : g.mark.Marked := by
  intro e member
  have same : g.isReciprocal = g.mark.isReciprocal := by
    refine isReciprocal_congr ?_
    rw [mark, List.map_map]
    rfl
  rw [← same]
  obtain ⟨f, _, rfl⟩ := List.mem_map.mp member
  rfl

/-- A graph has one edge more than another one, from a giver to a taker. The marks of both are up
to date. -/
structure Gains (g g' : Graph) (giver taker : String) : Prop where
  root : g'.root = g.root
  ends : (g'.edges.map Edge.ends).Perm ((giver, taker) :: g.edges.map Edge.ends)
  marked : g.Marked
  marked' : g'.Marked

theorem links_iff {g : Graph} {a b : String} :
    g.links a b = true ↔ (a, b) ∈ g.edges.map Edge.ends := by
  simp [links, Edge.ends]

namespace Gains

variable {g g' : Graph} {giver taker : String}

theorem links_iff (gains : g.Gains g' giver taker) {a b : String} :
    g'.links a b = true ↔ (a = giver ∧ b = taker) ∨ g.links a b = true := by
  rw [Graph.links_iff, Graph.links_iff, gains.ends.mem_iff, List.mem_cons, Prod.mk.injEq]

/-- Whether the taker and somebody else vouch for each other does not depend on the new edge,
except for the giver. -/
theorem isReciprocal_taker (gains : g.Gains g' giver taker) (foreign : giver ≠ taker) {a : String}
    (linked : g.links a taker = true) : g'.isReciprocal a taker = g.isReciprocal a taker := by
  have forth : g'.links a taker = g.links a taker := by
    rw [linked]
    exact gains.links_iff.mpr (Or.inr linked)
  have back : g'.links taker a = g.links taker a := by
    rw [Bool.eq_iff_iff, gains.links_iff, or_iff_right]
    exact fun ends => foreign ends.1.symm
  rw [isReciprocal, isReciprocal, forth, back]

theorem isReciprocal_giver (gains : g.Gains g' giver taker) (foreign : giver ≠ taker) :
    g'.isReciprocal giver taker = g.links taker giver := by
  have forth : g'.links giver taker = true := gains.links_iff.mpr (Or.inl ⟨rfl, rfl⟩)
  have back : g'.links taker giver = g.links taker giver := by
    rw [Bool.eq_iff_iff, gains.links_iff, or_iff_right]
    exact fun ends => foreign ends.1.symm
  rw [isReciprocal, forth, back]
  simp [foreign]

theorem touch_iff (gains : g.Gains g' giver taker) {a b : String} :
    g'.Touch a b ↔ g.Touch a b ∨ (a = giver ∧ b = taker) ∨ (a = taker ∧ b = giver) := by
  rw [Graph.touch_iff, Graph.touch_iff, gains.links_iff, gains.links_iff]
  tauto

theorem chain (gains : g.Gains g' giver taker) {n : Nat} {a b : String} (chain : g.Chain n a b) :
    g'.Chain n a b :=
  chain.of_touch fun _ _ touch => gains.touch_iff.mpr (Or.inl touch)

/-- From where the taker was out of reach, a chain either does without the new edge, or it has
come to the giver before. -/
theorem chain_cases (gains : g.Gains g' giver taker) {a x : String} {n : Nat}
    (unreached : ∀ m, ¬ g.Chain m a taker) (chain : g'.Chain n a x) :
    g.Chain n a x ∨ ∃ m < n, g.Chain m a giver := by
  induction chain with
  | here a => exact Or.inl (.here a)
  | @step a b c n _ touch ih =>
    rcases ih unreached with old | ⟨m, before, reached⟩
    · rcases gains.touch_iff.mp touch with known | ⟨rfl, rfl⟩ | ⟨rfl, rfl⟩
      · exact Or.inl (old.step known)
      · exact Or.inr ⟨n, Nat.lt_succ_self n, old⟩
      · exact absurd old (unreached n)
    · exact Or.inr ⟨m, by omega, reached⟩

variable {origin : String} {n : Nat}

theorem exists_isDistance_le (gains : g.Gains g' giver taker) {x : String}
    (least : g.IsDistance origin x n) : ∃ m ≤ n, g'.IsDistance origin x m :=
  (gains.chain least.chain).exists_isDistance

theorem isDistance_taker (gains : g.Gains g' giver taker)
    (unreached : ∀ m, ¬ g.Chain m origin taker) (least : g.IsDistance origin giver n) :
    g'.IsDistance origin taker (n + 1) := by
  have touch : g'.Touch giver taker := gains.touch_iff.mpr (Or.inr (Or.inl ⟨rfl, rfl⟩))
  refine isDistance_iff.mpr ⟨(gains.chain least.chain).step touch, fun j below shorter => ?_⟩
  rcases gains.chain_cases unreached shorter with old | ⟨m, before, reached⟩
  · exact unreached j old
  · exact (isDistance_iff.mp least).2 m (by omega) reached

theorem not_chain_taker (gains : g.Gains g' giver taker)
    (unreached : ∀ m, ¬ g.Chain m origin taker) (apart : ∀ m, ¬ g.Chain m origin giver) :
    ¬ g'.Chain n origin taker := by
  intro chain
  rcases gains.chain_cases unreached chain with old | ⟨m, _, reached⟩
  · exact unreached n old
  · exact apart m reached

end Gains

variable {naming : Naming} {root : String} {now now' : Reading} {items : List Item}

theorem built_marked : (built naming root now items).Marked :=
  mark_marked (drawn naming root (takenFrom items))

theorem built_ends :
    (built naming root now items).edges.map Edge.ends =
      (takenFrom items).map fun c => (c.issuer, c.subject) := by
  rw [built_edges_eq, List.map_map]
  rfl

/-- A credential from an issuer that has given its subject none before adds its edge to a graph,
and nothing but that. -/
theorem built_gains {item : Item} {c : Credential} (decoded : item.decode = .ok c)
    (fresh : (built naming root now items).links c.issuer c.subject = false) :
    (built naming root now items).Gains (built naming root now' (items ++ [item])) c.issuer
      c.subject where
  root := rfl
  ends := by
    have new : c.key ∉ (items.filterMap Item.credential?).map Credential.key := by
      intro old
      obtain ⟨d, taken, same⟩ := List.mem_map.mp (Credential.mem_keys_accepted_iff.mpr old)
      have linked : (c.issuer, c.subject) ∈ (built naming root now items).edges.map Edge.ends := by
        rw [built_ends, ← Credential.issuer_eq_of_key same, ← Credential.subject_eq_of_key same]
        exact List.mem_map_of_mem taken
      rw [← links_iff, fresh] at linked
      cases linked
    have more : (items ++ [item]).filterMap Item.credential? =
        items.filterMap Item.credential? ++ [c] := by
      simp [Item.credential?_eq_some_iff.mpr decoded]
    rw [built_ends, built_ends, takenFrom, more]
    exact (Credential.accepted_concat_perm new).map _
  marked := built_marked
  marked' := built_marked

end Graph

end Vouch
