import Vouch.Proofs.Graph.Tally
import Vouch.Proofs.Score.Standing

namespace Vouch

namespace Graph

variable {g part : Graph} {id : String} {ids : List String}

theorem Chain.mem_ids {a b : String} {n : Nat} (chain : g.Chain n a b) (sound : g.Sound)
    (known : a ∈ g.ids) : b ∈ g.ids := by
  cases chain with
  | here => exact known
  | step _ last => exact last.mem_ids sound

theorem selection_links {a b : String} (inA : a ∈ ids) (inB : b ∈ ids) :
    (g.selection ids true).links a b = g.links a b := by
  simp only [links, selection, if_true, List.any_filter]
  refine List.any_congr rfl fun e => ?_
  by_cases runs : (e.source = a && e.target = b) = true
  · simp only [Bool.and_eq_true, decide_eq_true_eq] at runs
    simp [runs, inA, inB]
  · rw [Bool.not_eq_true] at runs
    rw [runs, Bool.and_false]

/-- An edge between identities that are kept has its answer kept as well, if it has one. So marks
that are settled anew are the old ones. -/
theorem Marked.restrict_edges (marked : g.Marked) (ids : List String) :
    (g.restrict ids true).edges = g.edges.filter fun e => e.source ∈ ids && e.target ∈ ids := by
  have settled : ∀ e ∈ (g.selection ids true).edges,
      { e with reciprocal := (g.selection ids true).isReciprocal e.source e.target } = e := by
    intro e member
    obtain ⟨inside, ends⟩ := List.mem_filter.mp member
    simp only [Bool.and_eq_true, decide_eq_true_eq] at ends
    have same : (g.selection ids true).isReciprocal e.source e.target = e.reciprocal := by
      rw [marked e inside, isReciprocal, isReciprocal, selection_links ends.1 ends.2,
        selection_links ends.2 ends.1]
    rw [same]
  exact (List.map_congr_left settled).trans (List.map_id _)

theorem part_node? (inside : id ∈ ids) (withEdges : Bool) :
    (g.restrict ids withEdges).asPart.node? id = g.node? id :=
  (node?_restrict g id ids withEdges).trans (if_pos inside)

/-- A part of a graph is embedded in it. -/
theorem Marked.embeds_part (marked : g.Marked) (ids : List String) :
    g.Embeds (g.restrict ids true).asPart where
  root := rfl
  ids := by
    change (g.restrict ids true).ids ⊆ g.ids
    rw [restrict_ids]
    exact List.filter_subset_self _
  ends := by
    change ((g.restrict ids true).edges.map Edge.ends).Subperm (g.edges.map Edge.ends)
    rw [marked.restrict_edges]
    exact (List.filter_sublist.map _).subperm
  marked := mark_marked _
  marked' := marked

/-- A part agrees with the whole graph on identities whose neighbors are all kept. -/
theorem Marked.part_agreesOn (marked : g.Marked) (inside : id ∈ ids)
    (around : ∀ other, g.Touch id other → other ∈ ids) :
    (g.restrict ids true).asPart.AgreesOn g id where
  root := rfl
  node := part_node? inside true
  touching := by
    change (g.restrict ids true).touching id = g.touching id
    rw [touching, touching, marked.restrict_edges, List.filter_filter]
    refine List.filter_congr fun e member => ?_
    by_cases source : e.source = id
    · have other := around e.target ⟨e, member, Or.inl ⟨source, rfl⟩⟩
      simp [source, inside, other]
    · by_cases target : e.target = id
      · have other := around e.source ⟨e, member, Or.inr ⟨rfl, target⟩⟩
        simp [target, inside, other]
      · simp [source, target]

section

variable {α : Type} [Add α] [Sub α] [Mul α] [NatCast α]

/-- A part of a graph tells the truth about an identity: its node is there as it is, and so is its
standing, but for the distance from the root. That one may seem longer than it is, or there may
seem to be no way. -/
structure Truthful (part g : Graph) (w : Weights α) (id : String) : Prop where
  node : ∃ n, part.node? id = some n ∧ g.node? id = some n
  scored : part.score w id ∈ part.scores w ∧ g.score w id ∈ g.scores w
  standing : (part.score w id).standing.SameUpToDepth (g.score w id).standing
  depth : ∀ far, (part.score w id).standing.depth = some far →
    ∃ near ≤ far, (g.score w id).standing.depth = some near

theorem Embeds.truthful (embeds : g.Embeds part) (agrees : part.AgreesOn g id) (sound : g.Sound)
    (partSound : part.Sound) (known : id ∈ g.ids) (w : Weights α) : part.Truthful g w id := by
  obtain ⟨n, found⟩ := exists_node? known
  have kept : part.node? id = some n := agrees.node.trans found
  have inside : id ∈ part.ids := mem_ids_of_node? kept
  refine ⟨⟨n, kept, found⟩, ⟨score_mem_scores partSound inside w, score_mem_scores sound known w⟩,
    agrees.score_sameUpToDepth w, ?_⟩
  rw [score_standing inside, score_standing known]
  exact (embeds.standing_atLeast partSound sound id).depth

/-- What lies around an identity tells the truth about its interior, which is all that is less hops
away than it reaches. What is on the border may lack edges. -/
theorem neighborhood_truthful {naming : Naming} {root : String} {now : Reading} {store : Store}
    (run : build naming root now store = .ok g) (known : id ∈ g.ids) (naming' : Naming) {depth : Int}
    (further : 1 ≤ depth) (w : Weights α) :
    ∃ part, g.neighborhood naming' id depth = .ok part ∧
      ∀ member hops, g.IsDistance id member hops → hops < depth → part.Truthful g w member := by
  have sound := (build_reached run).sound
  obtain ⟨_, items, _, _, rfl⟩ := build_cases run
  have marked := @built_marked naming root now items
  generalize built naming root now items = g at *
  refine ⟨_, if_neg (by omega), fun member hops least interior => ?_⟩
  have partSound := sound.around naming' id depth.toNat
  have ball : ∀ b, b ∈ g.within id depth.toNat ↔ ∃ n ≤ depth.toNat, g.Chain n id b :=
    fun b => mem_within_iff sound
  have edged : decide (depth.toNat ≠ 0) = true := decide_eq_true (by omega)
  rw [around_eq_restrict sound known naming' ball, edged] at partSound ⊢
  have chain := least.chain
  have inside : member ∈ g.within id depth.toNat := (ball member).mpr ⟨hops, by omega, chain⟩
  -- One more hop still is within reach, so no neighbor of the interior is cut off.
  have agrees := marked.part_agreesOn inside fun other touch =>
    (ball other).mpr ⟨hops + 1, by omega, chain.step touch⟩
  exact (marked.embeds_part _).truthful agrees sound partSound (chain.mem_ids sound known) w

end

/-- A membership that the root gives, and an invitation by the new member. -/
def relay : List Item :=
  [.joining [],
    .record {
      id := .text "2"
      schema := .text "invitation"
      issuer := .text "A"
      subject := .text "B" }]

/-- What becomes of them. -/
def relayed : Graph where
  root := "R"
  builtAt := some (.ofUtc .dawn)
  nodes := [⟨"R", some "R", "organization", none, 1, none⟩, ⟨"A", some "A", "member", none, 2, none⟩,
    ⟨"B", some "B", "member", none, 1, none⟩]
  edges := [⟨"R", "A", .membership, "1", none, false⟩, ⟨"A", "B", .invitation, "2", none, false⟩]

theorem build_relay : build {} "R" .dawn (.memory relay) = .ok relayed := by cbv

/-- Next to the guest, the root is out of sight. What the guest has is not. -/
theorem neighborhood_truthful_relay :
    build {} "R" .dawn (.memory relay) = .ok relayed ∧
      ∃ part, relayed.neighborhood {} "B" 1 = .ok part ∧ part.ids = ["A", "B"] ∧
        part.Truthful relayed ({} : Settings).weights "B" ∧ relayed.depthOf "B" = some 2 ∧
        part.depthOf "B" = none := by
  obtain ⟨part, cut, interior⟩ := @neighborhood_truthful relayed "B" Float _ _ _ _ {} "R" .dawn
    (.memory relay) build_relay (by decide) {} 1 (by decide) ({} : Settings).weights
  have ids : (relayed.around {} "B" 1).ids = ["A", "B"] := by cbv
  have far : (relayed.around {} "B" 1).depthOf "B" = none := by cbv
  have near : relayed.depthOf "B" = some 2 := by cbv
  have guest := interior "B" 0 (isDistance_zero_iff.mpr rfl) (by decide)
  cases cut
  exact ⟨build_relay, _, rfl, ids, guest, near, far⟩

end Graph

end Vouch
