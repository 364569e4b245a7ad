import Vouch.Proofs.Score.Interior

namespace Vouch

namespace Graph

variable {g part : Graph} {id other : String} {ball : List String}

/-- On the way to an identity all lesser distances occur, each at another node. -/
theorem IsDistance.exists_passed (sound : g.Sound) (known : id ∈ g.ids) {n : Nat}
    (least : g.IsDistance id other n) :
    ∃ passed : List String, passed.length = n + 1 ∧ passed.Nodup ∧ passed ⊆ g.ids ∧
      ∀ b ∈ passed, ∃ m ≤ n, g.IsDistance id b m := by
  have there : other ∈ g.ids := least.chain.mem_ids sound known
  induction n generalizing other with
  | zero => exact ⟨[other], rfl, List.nodup_singleton _, by simpa using there, by simpa using least⟩
  | succ n ih =>
    obtain ⟨b, before, -⟩ := least.before
    obtain ⟨passed, length, nodup, inside, near⟩ := ih before (before.chain.mem_ids sound known)
    -- Nobody is passed twice, since all of them are nearer.
    have fresh : other ∉ passed := by
      intro again
      obtain ⟨m, bound, nearer⟩ := near other again
      have same := least.unique nearer
      omega
    refine ⟨other :: passed, by rw [List.length_cons, length], List.nodup_cons.mpr ⟨fresh, nodup⟩,
      List.cons_subset.mpr ⟨there, inside⟩, ?_⟩
    intro c member
    rcases List.mem_cons.mp member with rfl | earlier
    · exact ⟨n + 1, le_rfl, least⟩
    · obtain ⟨m, bound, nearer⟩ := near c earlier
      exact ⟨m, by omega, nearer⟩

/-- No distance is as large as the number of nodes. -/
theorem IsDistance.lt_length (sound : g.Sound) (known : id ∈ g.ids) {n : Nat}
    (least : g.IsDistance id other n) : n < g.nodes.length := by
  obtain ⟨passed, length, nodup, inside, -⟩ := least.exists_passed sound known
  have fits := (nodup.subperm inside).length_le
  rw [length, ids, List.length_map] at fits
  exact fits

/-- Shortest chains inside of a ball around their origin stay what they are if the ball is cut
out. -/
theorem IsDistance.restrict_ball {radius : Nat}
    (within : ∀ b, b ∈ ball ↔ ∃ n ≤ radius, g.Chain n id b) (further : radius ≠ 0) {n : Nat}
    (bound : n ≤ radius) (least : g.IsDistance id other n) :
    (g.restrict ball true).asPart.IsDistance id other n := by
  have inside := least.chain.restrict_ball within bound
  rw [decide_eq_true further] at inside
  refine ⟨asPart_chain_iff.mpr inside, fun m chain => ?_⟩
  exact least.2 (asPart_chain_iff.mp chain).of_restrict

/-- A graph is what lies within some distance around an identity in another one: the nodes that are
no further away and all edges between them, both in their order and as they are. Distances from the
identity stay the same. -/
structure IsBall (part g : Graph) (id : String) (depth : Int) (ball : List String) : Prop where
  mem : ∀ other, other ∈ ball ↔ ∃ n : Nat, n ≤ depth ∧ g.IsDistance id other n
  nodes : part.nodes = g.nodes.filter (·.id ∈ ball)
  edges : part.edges = g.edges.filter fun e => e.source ∈ ball && e.target ∈ ball
  distance : ∀ other ∈ ball, ∀ n, part.IsDistance id other n ↔ g.IsDistance id other n

theorem Marked.isBall (marked : g.Marked) {depth : Int} (further : 1 ≤ depth)
    (within : ∀ b, b ∈ ball ↔ ∃ n ≤ depth.toNat, g.Chain n id b) :
    (g.restrict ball true).asPart.IsBall g id depth ball := by
  have mem : ∀ other, other ∈ ball ↔ ∃ n : Nat, n ≤ depth ∧ g.IsDistance id other n := by
    intro other
    rw [within]
    constructor
    · rintro ⟨n, bound, chain⟩
      obtain ⟨m, below, least⟩ := chain.exists_isDistance
      exact ⟨m, by omega, least⟩
    · rintro ⟨n, bound, least⟩
      exact ⟨n, by omega, least.chain⟩
  refine ⟨mem, rfl, marked.restrict_edges ball, fun other inside n => ?_⟩
  obtain ⟨m, bound, least⟩ := (mem other).mp inside
  have cut := least.restrict_ball within (by omega) (by omega)
  -- Both graphs have a distance here, and it is the same, so neither can have another one.
  constructor
  · intro far
    rwa [far.unique cut]
  · intro far
    rwa [far.unique least]

namespace IsBall

variable {depth : Int}

theorem mem_ids_iff (cut : part.IsBall g id depth ball) (sound : g.Sound) (known : id ∈ g.ids) :
    other ∈ part.ids ↔ other ∈ ball := by
  rw [ids, cut.nodes, List.mem_map]
  constructor
  · rintro ⟨n, member, rfl⟩
    simpa using (List.mem_filter.mp member).2
  · intro inside
    obtain ⟨m, -, least⟩ := (cut.mem other).mp inside
    obtain ⟨n, node, rfl⟩ := List.mem_map.mp (least.chain.mem_ids sound known)
    exact ⟨n, List.mem_filter.mpr ⟨node, by simpa using inside⟩, rfl⟩

theorem origin_mem (cut : part.IsBall g id depth ball) (further : 1 ≤ depth) : id ∈ ball :=
  (cut.mem id).mpr ⟨0, by omega, isDistance_zero_iff.mpr rfl⟩

/-- Around the root nothing comes nearer to it, and nothing gets further away. -/
theorem depthOf_eq (cut : part.IsBall g g.root depth ball) (same : part.root = g.root)
    (sound : g.Sound) (partSound : part.Sound) (known : g.root ∈ g.ids) (further : 1 ≤ depth)
    (inside : other ∈ ball) : part.depthOf other = g.depthOf other := by
  have present : part.root ∈ part.ids := by
    rw [same, cut.mem_ids_iff sound known]
    exact cut.origin_mem further
  refine Option.ext fun n => ?_
  rw [depthOf_eq_some_iff partSound present, depthOf_eq_some_iff sound known, same,
    cut.distance other inside]

/-- A ball that reaches as far as the number of nodes can require holds all that is connected with
its middle. -/
theorem mem_iff_chain (cut : part.IsBall g id depth ball) (sound : g.Sound) (known : id ∈ g.ids)
    (enough : (g.nodes.length : Int) - 1 ≤ depth) : other ∈ ball ↔ ∃ n, g.Chain n id other := by
  rw [cut.mem]
  constructor
  · rintro ⟨n, -, least⟩
    exact ⟨n, least.chain⟩
  · rintro ⟨n, chain⟩
    obtain ⟨m, -, least⟩ := chain.exists_isDistance
    have bound := least.lt_length sound known
    exact ⟨m, by omega, least⟩

theorem edge_mem (cut : part.IsBall g id depth ball)
    (whole : ∀ other, other ∈ ball ↔ ∃ n, g.Chain n id other) {e : Edge} (member : e ∈ g.edges)
    (touched : e.source ∈ ball ∨ e.target ∈ ball) : e ∈ part.edges := by
  have source : e.target ∈ ball → e.source ∈ ball := fun inside => by
    obtain ⟨n, chain⟩ := (whole _).mp inside
    exact (whole _).mpr ⟨n + 1, chain.step ⟨e, member, Or.inr ⟨rfl, rfl⟩⟩⟩
  have target : e.source ∈ ball → e.target ∈ ball := fun inside => by
    obtain ⟨n, chain⟩ := (whole _).mp inside
    exact (whole _).mpr ⟨n + 1, chain.step ⟨e, member, Or.inl ⟨rfl, rfl⟩⟩⟩
  rw [cut.edges, List.mem_filter, Bool.and_eq_true, decide_eq_true_eq, decide_eq_true_eq]
  rcases touched with inside | inside
  · exact ⟨member, inside, target inside⟩
  · exact ⟨member, source inside, inside⟩

end IsBall

/-- What is cut out around an identity is a ball. Around the root all depths are kept, and a ball
that is large enough is all that is connected with the identity. -/
theorem neighborhood_isBall {α : Type} [Add α] [Sub α] [Mul α] [NatCast α] (reached : g.Reached)
    (marked : g.Marked) (known : id ∈ g.ids) (naming : Naming) {depth : Int} (further : 1 ≤ depth)
    (w : Weights α) :
    ∃ part ball, g.neighborhood naming id depth = .ok part ∧ part.IsBall g id depth ball ∧
      (id = g.root → ∀ other ∈ ball,
        part.score w other ∈ part.scores w ∧ g.score w other ∈ g.scores w ∧
          (part.score w other).standing.depth = (g.score w other).standing.depth) ∧
      ((g.nodes.length : Int) - 1 ≤ depth →
        (∀ other, other ∈ ball ↔ ∃ n, g.Chain n id other) ∧
          ∀ e ∈ g.edges, e.source ∈ ball ∨ e.target ∈ ball → e ∈ part.edges) := by
  have sound := reached.sound
  have partSound := sound.around naming id depth.toNat
  have within : ∀ b, b ∈ g.within id depth.toNat ↔ ∃ n ≤ depth.toNat, g.Chain n id b :=
    fun b => mem_within_iff sound
  have edged : decide (depth.toNat ≠ 0) = true := decide_eq_true (by omega)
  refine ⟨_, g.within id depth.toNat, if_neg (by omega), ?_⟩
  rw [around_eq_restrict sound known naming within, edged] at partSound ⊢
  have cut := marked.isBall further within
  refine ⟨cut, ?_, fun enough => ?_⟩
  · rintro rfl other inside
    have kept := (cut.mem_ids_iff sound known).mpr inside
    obtain ⟨n, -, least⟩ := (cut.mem other).mp inside
    have there := least.chain.mem_ids sound known
    refine ⟨score_mem_scores partSound kept w, score_mem_scores sound there w, ?_⟩
    rw [score_standing kept, score_standing there, standing_depth, standing_depth,
      cut.depthOf_eq rfl sound partSound known further inside]
  · have whole : ∀ other, other ∈ g.within id depth.toNat ↔ ∃ n, g.Chain n id other :=
      fun _ => cut.mem_iff_chain sound known enough
    exact ⟨whole, fun e => cut.edge_mem whole⟩

/-- One hop around the root of the ring leaves two edges, which still are reciprocal. Three hops
leave all but the island. -/
theorem neighborhood_isBall_ring :
    ring.mark.Reached ∧ ring.mark.Marked ∧
      (∃ part ball, ring.mark.neighborhood {} "R" 1 = .ok part ∧ part.IsBall ring.mark "R" 1 ball ∧
        part.ids = ["R", "A"] ∧
        part.edges = [{ arc "R" "A" "1" with reciprocal := true },
          { arc "A" "R" "2" with reciprocal := true }]) ∧
      ∃ part ball, ring.mark.neighborhood {} "R" 3 = .ok part ∧ part.IsBall ring.mark "R" 3 ball ∧
        part.ids = ["R", "A", "B"] ∧ (∃ n, ring.mark.Chain n "R" "B") ∧
        ¬ ∃ n, ring.mark.Chain n "R" "I" := by
  have reached := ring_reached.mark
  have marked := mark_marked ring
  have known : "R" ∈ ring.mark.ids := by decide
  obtain ⟨near, ball, cut, isBall, -, -⟩ := @neighborhood_isBall ring.mark "R" Float _ _ _ _
    reached marked known {} 1 (by decide) ({} : Settings).weights
  obtain ⟨far, wide, whole, isWide, -, component⟩ := @neighborhood_isBall ring.mark "R" Float _ _ _ _
    reached marked known {} 3 (by decide) ({} : Settings).weights
  have nearIds : (ring.mark.around {} "R" 1).ids = ["R", "A"] := by cbv
  have nearEdges : (ring.mark.around {} "R" 1).edges =
      [{ arc "R" "A" "1" with reciprocal := true },
        { arc "A" "R" "2" with reciprocal := true }] := by cbv
  have farIds : (ring.mark.around {} "R" 3).ids = ["R", "A", "B"] := by cbv
  cases cut
  cases whole
  have connected : ∀ other, other ∈ ["R", "A", "B"] ↔ ∃ n, ring.mark.Chain n "R" other := by
    intro other
    rw [← (component (by decide)).1, ← isWide.mem_ids_iff reached.sound known]
    exact iff_of_eq (congrArg (other ∈ ·) farIds.symm)
  exact ⟨reached, marked, ⟨_, ball, rfl, isBall, nearIds, nearEdges⟩, _, wide, rfl, isWide, farIds,
    (connected "B").mp (by decide), (connected "I").not.mp (by decide)⟩

end Graph

end Vouch
