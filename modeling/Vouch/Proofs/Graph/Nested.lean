import Vouch.Proofs.Graph.Distance

namespace Vouch

/-- The two ends of an edge. It is all of an edge that decides what is reciprocal. -/
def Edge.ends (e : Edge) : String × String := (e.source, e.target)

theorem mem_flatten_take_iff {levels : List (List String)} {id : String} {hops : Nat} :
    id ∈ (levels.take (hops + 1)).flatten ↔ ∃ n ≤ hops, levelOf levels id = some n := by
  induction levels generalizing hops with
  | nil => simp [levelOf]
  | cons front later ih =>
    simp only [List.take_succ_cons, List.flatten_cons, List.mem_append, levelOf,
      List.findIdx?_cons, decide_eq_true_eq]
    by_cases inFront : id ∈ front
    · simp [inFront]
    · rw [or_iff_right inFront, if_neg inFront]
      cases hops with
      | zero => simp
      | succ hops =>
        rw [ih]
        constructor
        · rintro ⟨n, bound, found⟩
          exact ⟨n + 1, by omega, by rw [← levelOf, found, Option.map_some]⟩
        · rintro ⟨n, bound, found⟩
          obtain ⟨m, below, rfl⟩ := Option.map_eq_some_iff.mp found
          exact ⟨m, by omega, below⟩

namespace Graph

variable {g : Graph} {id : String}

theorem mem_within_iff (sound : g.Sound) {origin : String} {hops : Nat} :
    id ∈ g.within origin hops ↔ ∃ n ≤ hops, g.Chain n origin id := by
  rw [within, mem_flatten_take_iff]
  simp only [levelOf_levelsFrom sound]
  constructor
  · rintro ⟨n, bound, least⟩
    exact ⟨n, bound, least.chain⟩
  · rintro ⟨n, bound, chain⟩
    obtain ⟨m, below, least⟩ := chain.exists_isDistance
    exact ⟨m, by omega, least⟩

theorem isReciprocal_congr {g g' : Graph} (same : g.edges.map Edge.ends = g'.edges.map Edge.ends) :
    g.isReciprocal = g'.isReciprocal := by
  have links : ∀ a b, g.links a b = g'.links a b := by
    intro a b
    have found := congrArg (fun ends => ends.any fun x => x.1 = a && x.2 = b) same
    simp only [List.any_map] at found
    exact found
  funext a b
  simp only [isReciprocal, links]

/-- Marks that are settled anew forget what was marked before. -/
theorem mark_eq_of_ends {g : Graph} {flag : Edge → Bool} {edges : List Edge}
    (marked : g.edges = edges.map fun e => { e with reciprocal := flag e }) :
    g.mark = { g with edges }.mark := by
  have same : g.isReciprocal = ({ g with edges } : Graph).isReciprocal := by
    refine isReciprocal_congr ?_
    rw [marked, List.map_map]
    rfl
  simp only [mark, marked, same, List.map_map]
  rfl

theorem restrict_mark (g : Graph) (ids : List String) (withEdges : Bool) :
    g.mark.restrict ids withEdges = g.restrict ids withEdges := by
  rw [restrict_eq_mark, restrict_eq_mark]
  cases withEdges with
  | false => rfl
  | true =>
    refine (@mark_eq_of_ends _ (fun e => g.isReciprocal e.source e.target)
      (g.selection ids true).edges ?_).trans rfl
    simp only [selection, mark, if_true, List.filter_map]
    rfl

theorem selection_selection (g : Graph) (ids others : List String) (withEdges withOthers : Bool) :
    (g.selection ids withEdges).selection others withOthers =
      g.selection (ids.filter (· ∈ others)) (withEdges && withOthers) := by
  have nodes : (g.nodes.filter (·.id ∈ ids)).filter (·.id ∈ others) =
      g.nodes.filter (·.id ∈ ids.filter (· ∈ others)) := by
    rw [List.filter_filter]
    refine List.filter_congr fun n _ => ?_
    simp [List.mem_filter, Bool.and_comm]
  have edges : (g.edges.filter fun e => e.source ∈ ids && e.target ∈ ids).filter
      (fun e => e.source ∈ others && e.target ∈ others) =
      g.edges.filter fun e =>
        e.source ∈ ids.filter (· ∈ others) && e.target ∈ ids.filter (· ∈ others) := by
    rw [List.filter_filter]
    refine List.filter_congr fun e _ => ?_
    rw [Bool.eq_iff_iff]
    simp only [Bool.and_eq_true, decide_eq_true_eq, List.mem_filter]
    tauto
  cases withEdges <;> cases withOthers <;> simp [selection, nodes, edges]

/-- Restricting twice is restricting once to what is given both times. -/
theorem restrict_restrict (g : Graph) (ids others : List String) (withEdges withOthers : Bool) :
    (g.restrict ids withEdges).restrict others withOthers =
      g.restrict (ids.filter (· ∈ others)) (withEdges && withOthers) := by
  rw [restrict_eq_mark g, restrict_mark, restrict_eq_mark, selection_selection, ← restrict_eq_mark]

/-- Only the nodes of a graph count among the identities that it is restricted to. -/
theorem restrict_congr (sound : g.Sound) {ids others : List String} (withEdges : Bool)
    (same : ∀ id ∈ g.ids, id ∈ ids ↔ id ∈ others) :
    g.restrict ids withEdges = g.restrict others withEdges := by
  have nodes : g.nodes.filter (·.id ∈ ids) = g.nodes.filter (·.id ∈ others) :=
    List.filter_congr fun n member => by simp only [same n.id (List.mem_map_of_mem member)]
  have edges : (g.edges.filter fun e => e.source ∈ ids && e.target ∈ ids) =
      g.edges.filter fun e => e.source ∈ others && e.target ∈ others :=
    List.filter_congr fun e member => by
      obtain ⟨source, target⟩ := sound.ends e member
      simp only [same _ source, same _ target]
  rw [restrict_eq_mark, restrict_eq_mark, selection, selection, nodes, edges]

theorem restrict_ids (g : Graph) (ids : List String) (withEdges : Bool) :
    (g.restrict ids withEdges).ids = g.ids.filter (· ∈ ids) := by
  simp only [Graph.ids, List.filter_map]
  rfl

theorem node?_restrict (g : Graph) (id : String) (ids : List String) (withEdges : Bool) :
    (g.restrict ids withEdges).node? id = if id ∈ ids then g.node? id else none := by
  change (g.nodes.filter (·.id ∈ ids)).find? _ = _
  rw [List.find?_filter]
  split
  · rename_i inside
    rw [node?]
    congr 1
    funext n
    by_cases same : n.id = id <;> simp [same, inside]
  · rename_i outside
    rw [List.find?_eq_none]
    intro n _
    by_cases same : n.id = id <;> simp [same, outside]

theorem restrict_touch_iff {ids : List String} {a b : String} :
    (g.restrict ids true).Touch a b ↔ g.Touch a b ∧ a ∈ ids ∧ b ∈ ids := by
  simp only [Touch, restrict_eq_mark, mark, selection, if_true, List.mem_map, List.mem_filter,
    Bool.and_eq_true, decide_eq_true_eq]
  constructor
  · rintro ⟨_, ⟨e, ⟨member, source, target⟩, rfl⟩, ⟨rfl, rfl⟩ | ⟨rfl, rfl⟩⟩
    · exact ⟨⟨e, member, Or.inl ⟨rfl, rfl⟩⟩, source, target⟩
    · exact ⟨⟨e, member, Or.inr ⟨rfl, rfl⟩⟩, target, source⟩
  · rintro ⟨⟨e, member, ⟨rfl, rfl⟩ | ⟨rfl, rfl⟩⟩, inA, inB⟩
    · exact ⟨_, ⟨e, ⟨member, inA, inB⟩, rfl⟩, Or.inl ⟨rfl, rfl⟩⟩
    · exact ⟨_, ⟨e, ⟨member, inB, inA⟩, rfl⟩, Or.inr ⟨rfl, rfl⟩⟩

theorem not_restrict_touch {ids : List String} {a b : String} :
    ¬ (g.restrict ids false).Touch a b := by
  rintro ⟨e, member, _⟩
  simp [restrict_eq_mark, mark, selection] at member

theorem Chain.of_touch {g g' : Graph} (touch : ∀ a b, g.Touch a b → g'.Touch a b) {n : Nat}
    {a b : String} (chain : g.Chain n a b) : g'.Chain n a b := by
  induction chain with
  | here a => exact .here a
  | step _ last ih => exact ih.step (touch _ _ last)

/-- Chains that are not longer than the radius stay inside of a ball around their origin. -/
theorem Chain.restrict_ball {origin : String} {radius : Nat} {ball : List String}
    (within : ∀ b, b ∈ ball ↔ ∃ n ≤ radius, g.Chain n origin b) {n : Nat} {b : String}
    (chain : g.Chain n origin b) (bound : n ≤ radius) :
    (g.restrict ball (radius ≠ 0)).Chain n origin b := by
  induction chain with
  | here a => exact .here a
  | @step _ b c n front touch ih =>
    have further : radius ≠ 0 := by omega
    have inside := ih within (by omega)
    simp only [ne_eq, further, not_false_eq_true, decide_true] at inside ⊢
    refine inside.step (restrict_touch_iff.mpr ⟨touch, ?_, ?_⟩)
    · exact (within b).mpr ⟨n, by omega, front⟩
    · exact (within c).mpr ⟨n + 1, bound, front.step touch⟩

theorem Chain.of_restrict {ids : List String} {withEdges : Bool} {n : Nat} {a b : String}
    (chain : (g.restrict ids withEdges).Chain n a b) : g.Chain n a b := by
  refine chain.of_touch fun a b touch => ?_
  cases withEdges with
  | false => exact absurd touch not_restrict_touch
  | true => exact (restrict_touch_iff.mp touch).1

/-- A graph that shows what lies around one identity. -/
def asPart (g : Graph) : Graph := { g with scope := .neighborhood }

theorem asPart_chain_iff {g : Graph} {n : Nat} {a b : String} :
    g.asPart.Chain n a b ↔ g.Chain n a b := by
  have same : ∀ a b, g.asPart.Touch a b ↔ g.Touch a b := fun _ _ => Iff.rfl
  exact ⟨Chain.of_touch fun a b => (same a b).mp, Chain.of_touch fun a b => (same a b).mpr⟩

theorem asPart_restrict (g : Graph) (ids : List String) (withEdges : Bool) :
    g.asPart.restrict ids withEdges = g.restrict ids withEdges := rfl

/-- What lies around a known identity is what is left of the graph on the ball around it. No
hop at all is a ball as well, without edges. -/
theorem around_eq_restrict (sound : g.Sound) (known : id ∈ g.ids) (naming : Naming) {hops : Nat}
    {ball : List String} (within : ∀ b, b ∈ ball ↔ ∃ n ≤ hops, g.Chain n id b) :
    g.around naming id hops = (g.restrict ball (hops ≠ 0)).asPart := by
  have present : ¬ (!g.hasNode id) = true := by simp [hasNode_iff.mpr known]
  rw [around, if_neg present]
  by_cases alone : hops = 0
  · subst alone
    have only : ∀ b ∈ g.ids, b ∈ [id] ↔ b ∈ ball := fun b _ => by
      rw [within, List.mem_singleton]
      simp [chain_zero_iff, eq_comm]
    rw [if_pos rfl, restrict_congr sound false only]
    rfl
  · have same : ∀ b ∈ g.ids, b ∈ g.within id hops ↔ b ∈ ball := fun b _ => by
      rw [within, mem_within_iff sound]
    rw [if_neg alone, restrict_congr sound true same]
    simp [alone, asPart]

/-- Around an unknown identity there is nothing to cut off. -/
theorem around_bare {naming : Naming} (sound : (g.bare naming id).asPart.Sound) (naming' : Naming)
    (hops : Nat) : (g.bare naming id).asPart.around naming' id hops = (g.bare naming id).asPart := by
  have known : id ∈ (g.bare naming id).asPart.ids := by
    simp [asPart, bare, addNode, node?, ids, Node.ofMention]
  have only : ∀ b, b ∈ [id] ↔ ∃ n ≤ hops, (g.bare naming id).asPart.Chain n id b := by
    intro b
    rw [List.mem_singleton]
    constructor
    · rintro rfl
      exact ⟨0, Nat.zero_le _, .here b⟩
    · rintro ⟨n, _, chain⟩
      cases chain with
      | here => rfl
      | step _ touch =>
        obtain ⟨e, member, _⟩ := touch
        cases member
  rw [around_eq_restrict sound known naming' only]
  simp [asPart, restrict, mark, bare, addNode, node?, Node.ofMention]

theorem around_around (sound : g.Sound) (naming naming' : Naming) (id : String) (near far : Nat) :
    (g.around naming id near).around naming' id far = g.around naming id (min near far) := by
  have partSound := sound.around naming id near
  by_cases known : id ∈ g.ids
  case neg =>
    have unknown : (!g.hasNode id) = true := by
      rw [Bool.not_eq_true', ← Bool.not_eq_true, hasNode_iff]
      exact known
    have bare : ∀ hops, g.around naming id hops = (g.bare naming id).asPart := fun hops => by
      rw [around, if_pos unknown]
      rfl
    rw [bare] at partSound ⊢
    rw [bare, around_bare partSound]
  have ball : ∀ b, b ∈ g.within id near ↔ ∃ n ≤ near, g.Chain n id b := fun b =>
    mem_within_iff sound
  rw [around_eq_restrict sound known naming ball] at partSound ⊢
  have stays : id ∈ (g.restrict (g.within id near) (near ≠ 0)).asPart.ids := by
    change id ∈ (g.restrict (g.within id near) (near ≠ 0)).ids
    rw [restrict_ids, List.mem_filter, decide_eq_true_eq]
    exact ⟨known, (ball id).mpr ⟨0, Nat.zero_le _, .here id⟩⟩
  have inner := fun b => @mem_within_iff _ b partSound id far
  -- Both balls together are the lesser one: up to its radius the first one keeps all chains.
  have both : ∀ b, b ∈ (g.within id near).filter
      (· ∈ (g.restrict (g.within id near) (near ≠ 0)).asPart.within id far) ↔
        ∃ n ≤ min near far, g.Chain n id b := by
    intro b
    rw [List.mem_filter, decide_eq_true_eq, ball, inner]
    simp only [asPart_chain_iff]
    constructor
    · rintro ⟨⟨n, inNear, chain⟩, m, inFar, part⟩
      rcases Nat.le_total near far with less | less
      · exact ⟨n, by omega, chain⟩
      · exact ⟨m, by omega, part.of_restrict⟩
    · rintro ⟨n, bound, chain⟩
      exact ⟨⟨n, by omega, chain⟩, n, by omega, chain.restrict_ball ball (by omega)⟩
  have least : decide (min near far ≠ 0) = (decide (near ≠ 0) && decide (far ≠ 0)) := by
    rw [← Bool.decide_and, decide_eq_decide]
    omega
  rw [around_eq_restrict partSound stays naming' inner, asPart_restrict, restrict_restrict,
    around_eq_restrict sound known naming both, least]

/-- Cutting out what lies around an identity from what lies around it gives what lies around it
within the lesser number of hops. The identity may be unknown, and what nothing is known about may
be named differently the second time. -/
theorem neighborhood_neighborhood {g : Graph} (reached : g.Reached) (naming naming' : Naming)
    (id : String) {first second : Int} (outer : 0 ≤ first) (inner : 0 ≤ second) :
    ∃ whole part, g.neighborhood naming id first = .ok whole ∧
      whole.neighborhood naming' id second = .ok part ∧
      g.neighborhood naming id (min first second) = .ok part := by
  have least : ¬ min first second < 0 := by omega
  have depths : (min first second).toNat = min first.toNat second.toNat := by omega
  refine ⟨_, _, if_neg (by omega), if_neg (by omega), ?_⟩
  rw [neighborhood, if_neg least, depths, around_around reached.sound]

theorem neighborhood_neighborhood_ring :
    ∃ whole part, ring.neighborhood {} "A" 1 = .ok whole ∧ whole.neighborhood {} "A" 3 = .ok part ∧
      ring.neighborhood {} "A" 1 = .ok part ∧ part.ids = ["R", "A", "B"] := by
  obtain ⟨whole, part, outer, inner, least⟩ :=
    @neighborhood_neighborhood ring ring_reached {} {} "A" 1 3 (by decide) (by decide)
  refine ⟨whole, part, outer, inner, least, ?_⟩
  have ids : (ring.around {} "A" 1).ids = ["R", "A", "B"] := by cbv
  cases least
  exact ids

end Graph

end Vouch
