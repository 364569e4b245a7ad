import Vouch.Graph.Multigraph
import Vouch.Proofs.Score.Topology

namespace Vouch

namespace Strands

theorem numbers_perm (endpoint : String × String × String → String)
    (edges : List ((String × String × String) × Nat)) :
    (numbers endpoint edges).Perm (edges.map Prod.snd) :=
  (flatMap_groups_perm (fun e : (String × String × String) × Nat => endpoint e.1) edges).map _

theorem addNode_edges (m : Strands) (id : String) : (m.addNode id).edges = m.edges := by
  unfold addNode
  split <;> rfl

theorem mem_addNode_ids_iff {m : Strands} {a id : String} :
    id ∈ (m.addNode a).ids ↔ id = a ∨ id ∈ m.ids := by
  unfold addNode
  split
  · rename_i old
    constructor
    · exact Or.inr
    · rintro (rfl | member)
      · exact old
      · exact member
  · simp [or_comm]

theorem mem_addEdge_ids_iff {m : Strands} {key : String × String × String} {n : Nat} {id : String} :
    id ∈ (m.addEdge key n).ids ↔ id = key.1 ∨ id = key.2.1 ∨ id ∈ m.ids := by
  have ids : (m.addEdge key n).ids = ((m.addNode key.1).addNode key.2.1).ids := by
    unfold addEdge
    dsimp only
    split <;> rfl
  rw [ids, mem_addNode_ids_iff, mem_addNode_ids_iff]
  tauto

theorem addEdge_edges (m : Strands) (key : String × String × String) (n : Nat) :
    (m.addEdge key n).edges = if m.edges.any (·.1 = key) then
      m.edges.map fun e => if e.1 = key then (key, n) else e else m.edges ++ [(key, n)] := by
  unfold addEdge
  simp only [addNode_edges]
  split <;> rfl

theorem addEdge_edges_fresh {m : Strands} {key : String × String × String}
    (fresh : multigraph.hasEdge m key = false) (n : Nat) :
    (m.addEdge key n).edges = m.edges ++ [(key, n)] := by
  have none : m.edges.any (·.1 = key) = false := fresh
  rw [addEdge_edges, none]
  rfl

theorem addEdge_keys (m : Strands) (key : String × String × String) (n : Nat) :
    (m.addEdge key n).edges.map Prod.fst =
      if m.edges.any (·.1 = key) then m.edges.map Prod.fst else m.edges.map Prod.fst ++ [key] := by
  rw [addEdge_edges]
  split
  · rw [List.map_map]
    refine List.map_congr_left fun e _ => ?_
    by_cases same : e.1 = key <;> simp [same]
  · simp

theorem hasEdge_iff {m : Strands} {key : String × String × String} :
    multigraph.hasEdge m key = true ↔ key ∈ m.edges.map Prod.fst := by
  simp [multigraph]

/-- Edges that are added with a new key join one group. -/
theorem numbers_concat_perm (endpoint : String × String × String → String)
    (edges : List ((String × String × String) × Nat)) (key : String × String × String) (n : Nat)
    (keep : (String × String × String) × Nat → Bool) :
    (numbers endpoint ((edges ++ [(key, n)]).filter keep)).Perm
      (if keep (key, n) then n :: numbers endpoint (edges.filter keep)
        else numbers endpoint (edges.filter keep)) := by
  refine (numbers_perm endpoint _).trans ?_
  have old := (numbers_perm endpoint (edges.filter keep)).symm
  rw [List.filter_append, List.map_append]
  split
  · rename_i kept
    simpa [kept] using (List.perm_append_singleton n _).trans (old.cons n)
  · rename_i left
    simpa [left] using old

theorem links_iff {m : Strands} {a b : String} :
    m.links a b = true ↔ ∃ label, multigraph.hasEdge m (a, b, label) = true := by
  simp [links, multigraph]

theorem mem_neighbors_iff {m : Strands} {a b : String} :
    b ∈ m.neighbors a ↔ m.links a b = true ∨ m.links b a = true := by
  simp only [neighbors, links, List.mem_eraseDups, List.mem_flatMap, List.any_eq_true,
    Bool.and_eq_true, decide_eq_true_eq, ← exists_or, ← and_or_left, List.mem_append,
    List.mem_ite_nil_right, List.mem_singleton]
  refine exists_congr fun e => and_congr_right fun _ => ?_
  constructor
  · rintro (⟨rfl, rfl⟩ | ⟨rfl, rfl⟩)
    · exact Or.inl ⟨rfl, rfl⟩
    · exact Or.inr ⟨rfl, rfl⟩
  · rintro (⟨rfl, rfl⟩ | ⟨rfl, rfl⟩)
    · exact Or.inl ⟨rfl, rfl⟩
    · exact Or.inr ⟨rfl, rfl⟩

theorem mem_within_iff {m : Strands} {a b : String} {n : Nat} :
    b ∈ m.within a n ↔ ∃ k ≤ n, Walk m.neighbors k a b := by
  induction n generalizing b with
  | zero =>
    simp only [within, List.mem_singleton, Nat.le_zero, exists_eq_left]
    constructor
    · rintro rfl
      exact .here b
    · intro walk
      cases walk
      rfl
  | succ n ih =>
    simp only [within, List.mem_eraseDups, List.mem_append, List.mem_flatMap, ih]
    constructor
    · rintro (⟨k, bound, walk⟩ | ⟨c, ⟨k, bound, walk⟩, near⟩)
      · exact ⟨k, by omega, walk⟩
      · exact ⟨k + 1, by omega, walk.step near⟩
    · rintro ⟨k, bound, walk⟩
      by_cases last : k = n + 1
      · subst last
        cases walk with
        | step walk near => exact Or.inr ⟨_, ⟨n, le_rfl, walk⟩, near⟩
      · exact Or.inl ⟨k, by omega, walk⟩

/-- Strands can be counted on as a multigraph. -/
theorem multigraph_lawful : multigraph.Lawful where
  hasNode_empty _ := rfl
  hasNode_addNode m a id := by
    rw [Bool.eq_iff_iff]
    simpa [multigraph] using mem_addNode_ids_iff
  hasNode_addEdge m key n id := by
    rw [Bool.eq_iff_iff]
    simpa [multigraph, or_assoc] using mem_addEdge_ids_iff
  hasEdge_empty _ := rfl
  hasEdge_addNode m a key := by
    simp only [multigraph, addNode_edges]
  hasEdge_addEdge m key n other := by
    rw [Bool.eq_iff_iff, Bool.or_eq_true, hasEdge_iff, hasEdge_iff, decide_eq_true_eq]
    change other ∈ (m.addEdge key n).edges.map Prod.fst ↔ _
    rw [addEdge_keys]
    split
    · rename_i there
      have known : key ∈ m.edges.map Prod.fst := hasEdge_iff.mp there
      constructor
      · exact Or.inr
      · rintro (rfl | member)
        · exact known
        · exact member
    · simp [or_comm]
  links_iff _ _ _ := links_iff
  outgoing_empty _ := rfl
  outgoing_addNode m a id := by
    simp only [multigraph, addNode_edges]
  outgoing_addEdge m key n id fresh := by
    simp only [multigraph, addEdge_edges_fresh fresh]
    simpa using numbers_concat_perm (·.2.1) m.edges key n (·.1.1 = id)
  incoming_empty _ := rfl
  incoming_addNode m a id := by
    simp only [multigraph, addNode_edges]
  incoming_addEdge m key n id fresh := by
    simp only [multigraph, addEdge_edges_fresh fresh]
    simpa using numbers_concat_perm (·.1) m.edges key n (·.1.2.1 = id)
  mem_neighbors_iff _ _ _ := mem_neighbors_iff
  mem_within_iff _ _ _ _ _ := mem_within_iff

end Strands

end Vouch
