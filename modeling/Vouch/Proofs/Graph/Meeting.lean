import Vouch.Proofs.Graph.Distance

namespace Vouch

namespace Graph

variable {g : Graph} {a b c : String} {n m : Nat}

theorem Touch.symm (touch : g.Touch a b) : g.Touch b a := by
  obtain ⟨e, member, ends⟩ := touch
  exact ⟨e, member, ends.symm⟩

theorem Chain.append (front : g.Chain n a b) (back : g.Chain m b c) : g.Chain (n + m) a c := by
  induction back with
  | here => exact front
  | step _ last ih => exact (ih front).step last

theorem Chain.symm (chain : g.Chain n a b) : g.Chain n b a := by
  induction chain with
  | here a => exact .here a
  | @step a b c n front touch ih =>
    rw [Nat.add_comm]
    exact ((Chain.here c).step touch.symm).append ih

/-- A chain can be cut after any number of edges. -/
theorem Chain.split (chain : g.Chain (n + m) a c) : ∃ b, g.Chain n a b ∧ g.Chain m b c := by
  induction m generalizing c with
  | zero => exact ⟨c, chain, .here c⟩
  | succ m ih =>
    rw [← Nat.add_assoc] at chain
    cases chain with
    | step front last =>
      obtain ⟨b, start, rest⟩ := ih front
      exact ⟨b, start, rest.step last⟩

theorem IsDistance.symm (least : g.IsDistance a b n) : g.IsDistance b a n :=
  isDistance_iff.mpr ⟨least.chain.symm, fun j below chain =>
    (isDistance_iff.mp least).2 j below chain.symm⟩

end Graph

/-- Two searches from different origins have not met yet: their origins are further apart than the
hops that both have made. -/
structure Side.Apart (g : Graph) (a b : String) (i j : Nat) (near far : Side) : Prop where
  near : near.Reaches g a i
  far : far.Reaches g b j
  apart : ∀ n ≤ i + j, ¬ g.Chain n a b

namespace Side.Apart

variable {g : Graph} {a b : String} {i j : Nat} {near far : Side}

theorem symm (sides : Apart g a b i j near far) : Apart g b a j i far near :=
  ⟨sides.far, sides.near, fun n bound chain => sides.apart n (by omega) chain.symm⟩

theorem start (g : Graph) {a b : String} (different : a ≠ b) :
    Apart g a b 0 0 (.start g a) (.start g b) := by
  refine ⟨.start g a, .start g b, fun n bound chain => different ?_⟩
  obtain rfl : n = 0 := by omega
  exact Graph.chain_zero_iff.mp chain

/-- A search that cannot go on has not been met by the other one and never will be. -/
theorem stuck (sides : Apart g a b i j near far) (sound : g.Sound) (done : near.next g = [])
    (n : Nat) : ¬ g.IsDistance a b n := by
  intro least
  have bound := sides.near.finished sound done least
  exact sides.apart n (by omega) least.chain

/-- If the next hop of one search comes upon what the other one has reached, then there is a chain
of just one edge more than both have gone. -/
theorem met (sides : Apart g a b i j near far) (sound : g.Sound) {x : String}
    (next : x ∈ near.next g) (reached : x ∉ far.rest) : g.IsDistance a b (i + j + 1) := by
  have least := (sides.near.mem_next_iff sound).mp next
  have node : x ∈ g.ids := ((sides.near.rest x).mp (List.mem_of_mem_filter next)).1
  rw [sides.far.rest, and_iff_right node] at reached
  simp only [not_forall, not_not] at reached
  obtain ⟨m, bound, back⟩ := reached
  have whole := least.chain.append back.symm
  have same : m = j := by
    by_contra other
    exact sides.apart (i + 1 + m) (by omega) whole
  rw [same, show i + 1 + j = i + j + 1 by omega] at whole
  exact Graph.isDistance_iff.mpr ⟨whole, fun n below => sides.apart n (by omega)⟩

/-- If it does not, both searches stay apart. -/
theorem grow (sides : Apart g a b i j near far) (sound : g.Sound)
    (clear : ∀ x ∈ near.next g, x ∈ far.rest) : Apart g a b (i + 1) j (near.grow g) far := by
  refine ⟨sides.near.grow sound, sides.far, fun n bound chain => ?_⟩
  have length : n = i + 1 + j := by
    by_contra other
    exact sides.apart n (by omega) chain
  subst length
  -- The identity after `i + 1` edges lies on the next sphere, and the other search has reached it.
  obtain ⟨x, front, back⟩ := chain.split
  have least : g.IsDistance a x (i + 1) := Graph.isDistance_iff.mpr ⟨front, fun l below shorter =>
    sides.apart (l + j) (by omega) (shorter.append back)⟩
  have left := clear x ((sides.near.mem_next_iff sound).mpr least)
  exact ((sides.far.rest x).mp left).2 j le_rfl back.symm

/-- Two searches meet after as many hops as there are in the shortest chains between their
origins. -/
theorem meet_eq_some_iff (sides : Apart g a b i j near far) (sound : g.Sound) {n : Nat} :
    Side.meet g (i + j) near far = some n ↔ g.IsDistance a b n := by
  induction h : i + j, near, far using Side.meet.induct g generalizing a b i j with
  | case1 hops near far swap ih =>
    rw [Side.meet, dif_pos swap]
    have other := ih sides.symm (by omega)
    exact other.trans ⟨Graph.IsDistance.symm, Graph.IsDistance.symm⟩
  | case2 hops near far swap done =>
    rw [Side.meet, dif_neg swap, dif_pos done]
    simpa using sides.stuck sound done n
  | case3 hops near far swap further meets =>
    rw [Side.meet, dif_neg swap, dif_neg further, if_pos meets]
    obtain ⟨x, next, reached⟩ := List.any_eq_true.mp meets
    have least := sides.met sound next (by simpa using reached)
    rw [h] at least
    constructor
    · rintro ⟨⟩
      exact least
    · intro other
      rw [least.unique other]
  | case4 hops near far swap further misses ih =>
    rw [Side.meet, dif_neg swap, dif_neg further, if_neg misses]
    refine ih (sides.grow sound fun x next => ?_) (by omega)
    by_contra reached
    exact misses (List.any_eq_true.mpr ⟨x, next, by simpa using reached⟩)

end Side.Apart

namespace Graph

/-- Both searches for the distance from the root come to the same for every identity, unless it is
the root itself and has no node. -/
theorem depthOf_eq_levelOf {g : Graph} (sound : g.Sound) {id : String}
    (known : id = g.root → id ∈ g.ids) : g.depthOf id = levelOf g.rootLevels id := by
  refine Option.ext fun n => ?_
  rw [levelOf_rootLevels sound, depthOf]
  by_cases self : id = g.root
  · have zero : g.IsDistance g.root id 0 := isDistance_zero_iff.mpr self.symm
    rw [if_pos self, and_iff_right (self ▸ known self)]
    constructor
    · rintro ⟨⟩
      exact zero
    · intro other
      rw [zero.unique other]
  rw [if_neg self]
  by_cases present : id ∈ g.ids ∧ g.root ∈ g.ids
  · have meet : Side.meet g (0 + 0) (.start g g.root) (.start g id) = some n ↔
        g.IsDistance g.root id n := (Side.Apart.start g (Ne.symm self)).meet_eq_some_iff sound
    simpa [hasNode_iff.mpr present.1, hasNode_iff.mpr present.2, present.2] using meet
  · have absent : (!g.hasNode id || !g.hasNode g.root) = true := by
      rw [Bool.or_eq_true, Bool.not_eq_true', Bool.not_eq_true', ← Bool.not_eq_true,
        ← Bool.not_eq_true, hasNode_iff, hasNode_iff]
      tauto
    rw [if_pos absent]
    simp only [reduceCtorEq, false_iff]
    rintro ⟨root, least⟩
    cases least.chain with
    | here => exact self rfl
    | step _ touch => exact present ⟨touch.mem_ids sound, root⟩

theorem depthOf_eq_some_iff {g : Graph} (sound : g.Sound) (present : g.root ∈ g.ids) {id : String}
    {n : Nat} : g.depthOf id = some n ↔ g.IsDistance g.root id n := by
  rw [depthOf_eq_levelOf sound fun self => self ▸ present, levelOf_rootLevels sound,
    and_iff_right present]

theorem depthOf_eq_none_iff {g : Graph} (sound : g.Sound) (present : g.root ∈ g.ids) {id : String} :
    g.depthOf id = none ↔ ∀ n, ¬ g.Chain n g.root id := by
  rw [depthOf_eq_levelOf sound fun self => self ▸ present, levelOf_rootLevels_eq_none_iff sound,
    not_and, not_exists]
  exact forall_prop_of_true present

theorem lookup_depths {g : Graph} {id : String} (known : id ∈ g.ids) :
    g.depths.lookup id = some (levelOf g.rootLevels id) :=
  List.lookup_graph (levelOf g.rootLevels) known

/-- Both searches agree on an identity. A node has an entry among the depths of all nodes, which is
what the search for that node alone comes to. Where the identity or the root has no node, that search
comes to nothing. -/
structure DepthsAgree (g : Graph) (id : String) : Prop where
  entry : g.hasNode id = true → g.depths.lookup id = some (g.depthOf id)
  absent : g.hasNode id = false ∨ g.hasNode g.root = false → g.depthOf id = none

/-- The searches agree on every identity but one: a root without a node is not missed where it is
searched for alone. -/
theorem depthOf_agrees_iff {g : Graph} (reached : g.Reached) (id : String) :
    g.DepthsAgree id ↔ (id = g.root → g.hasNode g.root = true) := by
  constructor
  · rintro agree rfl
    by_contra missing
    have nothing := agree.absent (Or.inr (Bool.eq_false_iff.mpr missing))
    rw [depthOf, if_pos rfl] at nothing
    cases nothing
  · intro present
    refine ⟨fun known => ?_, fun missing => ?_⟩
    · rw [hasNode_iff] at known
      rw [lookup_depths known, depthOf_eq_levelOf reached.sound fun _ => known]
    · have other : id ≠ g.root := by
        rintro rfl
        rw [present rfl] at missing
        simp at missing
      rw [depthOf, if_neg other, if_pos]
      rcases missing with node | root
      · rw [node, Bool.not_false, Bool.true_or]
      · rw [root, Bool.not_false, Bool.or_true]

/-- What lies apart from a ring. The root of the ring is not there. -/
def island : Graph := ring.restrict ["I"] true

theorem island_reached : island.Reached := ring_reached.restrict ["I"] true

theorem depthOf_agrees_iff_island :
    island.Reached ∧ ("I" = island.root → island.hasNode island.root = true) ∧
      island.DepthsAgree "I" ∧ island.depths = [("I", none)] := by
  have other : "I" = island.root → island.hasNode island.root = true := by decide
  exact ⟨island_reached, other, (depthOf_agrees_iff island_reached "I").mpr other, by cbv⟩

/-- The island has no node for its root, and still finds it right at the root. -/
theorem not_depthOf_agrees : ¬ ∀ g : Graph, g.Reached → ∀ id, g.DepthsAgree id := by
  intro agree
  have nothing := (agree island island_reached "R").absent (Or.inr (by decide))
  exact absurd nothing (by decide)

end Graph

end Vouch
