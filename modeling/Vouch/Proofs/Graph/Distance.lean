import Mathlib.Order.Bounds.Basic
import Vouch.Proofs.Graph.Reached

namespace Vouch

namespace Graph

/-- Two identities share an edge, whichever way it runs. -/
def Touch (g : Graph) (a b : String) : Prop :=
  ∃ e ∈ g.edges, e.source = a ∧ e.target = b ∨ e.source = b ∧ e.target = a

/-- A chain of so many edges from one identity to another. Each edge may be used either way. -/
inductive Chain (g : Graph) : Nat → String → String → Prop
  | here (a : String) : Chain g 0 a a
  | step {a b c : String} {n : Nat} : Chain g n a b → g.Touch b c → Chain g (n + 1) a c

/-- The number of edges of the shortest chains between two identities. -/
def IsDistance (g : Graph) (a b : String) (n : Nat) : Prop :=
  IsLeast {k | g.Chain k a b} n

theorem isDistance_iff {g : Graph} {a b : String} {n : Nat} :
    g.IsDistance a b n ↔ g.Chain n a b ∧ ∀ j < n, ¬ g.Chain j a b := by
  constructor
  · rintro ⟨chain, least⟩
    exact ⟨chain, fun j below shorter => absurd (least shorter) (by omega)⟩
  · rintro ⟨chain, least⟩
    refine ⟨chain, fun j other => ?_⟩
    by_contra below
    exact least j (by omega) other

theorem IsDistance.chain {g : Graph} {a b : String} {n : Nat} (least : g.IsDistance a b n) :
    g.Chain n a b :=
  least.1

theorem IsDistance.unique {g : Graph} {a b : String} {n m : Nat} (first : g.IsDistance a b n)
    (second : g.IsDistance a b m) : n = m :=
  IsLeast.unique first second

theorem Chain.exists_isDistance {g : Graph} {a b : String} {n : Nat} (chain : g.Chain n a b) :
    ∃ m ≤ n, g.IsDistance a b m := by
  induction n using Nat.strong_induction_on with
  | _ n shorter =>
    by_cases found : ∃ j < n, g.Chain j a b
    · obtain ⟨j, below, other⟩ := found
      obtain ⟨m, bound, least⟩ := shorter j below other
      exact ⟨m, by omega, least⟩
    · exact ⟨n, le_rfl, isDistance_iff.mpr ⟨chain, fun j below other => found ⟨j, below, other⟩⟩⟩

theorem chain_zero_iff {g : Graph} {a b : String} : g.Chain 0 a b ↔ a = b := by
  constructor
  · intro chain
    cases chain
    rfl
  · rintro rfl
    exact .here a

theorem isDistance_zero_iff {g : Graph} {a b : String} : g.IsDistance a b 0 ↔ a = b := by
  rw [isDistance_iff, chain_zero_iff]
  simp

/-- On a shortest chain the identity before the last one has its own distance, which is one
less. -/
theorem IsDistance.before {g : Graph} {a c : String} {n : Nat} (least : g.IsDistance a c (n + 1)) :
    ∃ b, g.IsDistance a b n ∧ g.Touch b c := by
  rw [isDistance_iff] at least
  obtain ⟨chain, minimal⟩ := least
  cases chain with
  | @step _ b _ _ front touch =>
    refine ⟨b, isDistance_iff.mpr ⟨front, ?_⟩, touch⟩
    intro j below shorter
    exact minimal (j + 1) (by omega) (shorter.step touch)

theorem touch_iff {g : Graph} {a b : String} :
    g.Touch a b ↔ g.links a b = true ∨ g.links b a = true := by
  simp only [Touch, links, List.any_eq_true, Bool.and_eq_true, decide_eq_true_eq, ← exists_or,
    ← and_or_left]

theorem Touch.mem_ids {g : Graph} {a b : String} (touch : g.Touch a b) (sound : g.Sound) :
    b ∈ g.ids := by
  obtain ⟨e, member, ⟨_, rfl⟩ | ⟨rfl, _⟩⟩ := touch
  · exact (sound.ends e member).2
  · exact (sound.ends e member).1

theorem mem_beside_iff {g : Graph} {ids : List String} {id : String} :
    id ∈ g.beside ids ↔ ∃ a ∈ ids, g.Touch a id := by
  simp only [beside, List.mem_flatMap, Edge.across, List.mem_append]
  constructor
  · rintro ⟨e, member, forward | backward⟩
    · split at forward
      · rename_i origin
        exact ⟨e.source, origin, e, member, Or.inl ⟨rfl, (List.mem_singleton.mp forward).symm⟩⟩
      · cases forward
    · split at backward
      · rename_i origin
        exact ⟨e.target, origin, e, member, Or.inr ⟨(List.mem_singleton.mp backward).symm, rfl⟩⟩
      · cases backward
  · rintro ⟨a, origin, e, member, ⟨rfl, rfl⟩ | ⟨rfl, rfl⟩⟩
    · exact ⟨e, member, Or.inl (by simp [origin])⟩
    · exact ⟨e, member, Or.inr (by simp [origin])⟩

end Graph

/-- What a search from an origin has found after so many hops: in front stands what lies exactly so
far away, and left are the nodes that lie further away or cannot be reached. -/
structure Side.Reaches (s : Side) (g : Graph) (origin : String) (hops : Nat) : Prop where
  front : ∀ id, id ∈ s.front ↔ g.IsDistance origin id hops
  rest : ∀ id, id ∈ s.rest ↔ id ∈ g.ids ∧ ∀ j ≤ hops, ¬ g.Chain j origin id

namespace Side.Reaches

variable {g : Graph} {s : Side} {origin : String} {hops : Nat}

theorem start (g : Graph) (origin : String) : (Side.start g origin).Reaches g origin 0 where
  front := by
    intro id
    rw [Graph.isDistance_zero_iff]
    exact List.mem_singleton.trans eq_comm
  rest := by
    intro id
    simp [Side.start, Graph.chain_zero_iff, eq_comm (a := id)]

/-- The next front is the next sphere around the origin. -/
theorem mem_next_iff (reaches : s.Reaches g origin hops) (sound : g.Sound) {id : String} :
    id ∈ s.next g ↔ g.IsDistance origin id (hops + 1) := by
  simp only [Side.next, List.mem_filter, decide_eq_true_eq, Graph.mem_beside_iff, reaches.rest]
  constructor
  · rintro ⟨⟨_, far⟩, a, inFront, touch⟩
    have chain := ((reaches.front a).mp inFront).chain
    exact Graph.isDistance_iff.mpr ⟨chain.step touch, fun j below => far j (by omega)⟩
  · intro least
    obtain ⟨a, inFront, touch⟩ := least.before
    have minimal := (Graph.isDistance_iff.mp least).2
    exact ⟨⟨touch.mem_ids sound, fun j bound => minimal j (by omega)⟩,
      a, (reaches.front a).mpr inFront, touch⟩

theorem grow (reaches : s.Reaches g origin hops) (sound : g.Sound) :
    (s.grow g).Reaches g origin (hops + 1) where
  front := fun _ => reaches.mem_next_iff sound
  rest := by
    intro id
    have next : id ∈ s.next g ↔ g.IsDistance origin id (hops + 1) := reaches.mem_next_iff sound
    simp only [Side.next, List.mem_filter, decide_eq_true_eq] at next
    simp only [Side.grow, List.mem_filter, decide_eq_true_eq]
    constructor
    · rintro ⟨left, unfound⟩
      obtain ⟨node, far⟩ := (reaches.rest id).mp left
      refine ⟨node, fun j bound chain => ?_⟩
      by_cases last : j = hops + 1
      · subst last
        have least : g.IsDistance origin id (hops + 1) :=
          Graph.isDistance_iff.mpr ⟨chain, fun i below => far i (by omega)⟩
        exact unfound (next.mpr least).2
      · exact far j (by omega) chain
    · rintro ⟨node, far⟩
      refine ⟨(reaches.rest id).mpr ⟨node, fun j bound => far j (by omega)⟩, fun found => ?_⟩
      have left := (reaches.rest id).mpr ⟨node, fun j bound => far j (by omega)⟩
      exact far (hops + 1) le_rfl (next.mp ⟨left, found⟩).1

/-- A search whose next front is empty has found everything that can be reached. -/
theorem finished (reaches : s.Reaches g origin hops) (sound : g.Sound) (done : s.next g = [])
    {id : String} {n : Nat} (least : g.IsDistance origin id n) : n ≤ hops := by
  by_contra far
  have sphere : ∀ m, hops + 1 ≤ m → ∀ a, ¬ g.IsDistance origin a m := by
    intro m bound
    induction m, bound using Nat.le_induction with
    | base =>
      intro a atNext
      have member := (reaches.mem_next_iff sound).mpr atNext
      rw [done] at member
      cases member
    | succ m _ none =>
      intro a atNext
      obtain ⟨b, before, _⟩ := atNext.before
      exact none b before
  exact sphere n (by omega) id least

/-- The levels of a search are the spheres around its origin, from the one it has come to on. -/
theorem levelOf_levels (reaches : s.Reaches g origin hops) (sound : g.Sound) {id : String}
    {n : Nat} :
    levelOf (s.levels g) id = some n ↔ g.IsDistance origin id (hops + n) := by
  induction s using Side.levels.induct g generalizing hops n with
  | case1 s done =>
    rw [Side.levels, dif_pos done]
    simp only [levelOf, List.findIdx?_cons, decide_eq_true_eq, List.findIdx?_nil, Option.map_none]
    constructor
    · intro found
      split at found
      · rename_i inFront
        cases found
        exact (reaches.front id).mp inFront
      · cases found
    · intro least
      have bound := reaches.finished sound done least
      obtain rfl : n = 0 := by omega
      rw [if_pos ((reaches.front id).mpr least)]
  | case2 s further ih =>
    rw [Side.levels, dif_neg further]
    have later : ∀ m, levelOf ((s.grow g).levels g) id = some m ↔
        g.IsDistance origin id (hops + 1 + m) := fun m => ih (reaches.grow sound)
    simp only [levelOf] at later
    simp only [levelOf, List.findIdx?_cons, decide_eq_true_eq]
    split
    · rename_i inFront
      have least := (reaches.front id).mp inFront
      constructor
      · rintro ⟨⟩
        exact least
      · intro other
        have same := least.unique other
        obtain rfl : n = 0 := by omega
        rfl
    · rename_i absent
      rw [Option.map_eq_some_iff]
      constructor
      · rintro ⟨m, found, rfl⟩
        have least := (later m).mp found
        rwa [show hops + (m + 1) = hops + 1 + m by omega]
      · intro least
        cases n with
        | zero => exact absurd ((reaches.front id).mpr least) absent
        | succ m =>
          rw [show hops + (m + 1) = hops + 1 + m by omega] at least
          exact ⟨m, (later m).mpr least, rfl⟩

end Side.Reaches

namespace Graph

theorem levelOf_levelsFrom {g : Graph} (sound : g.Sound) {origin id : String} {n : Nat} :
    levelOf (g.levelsFrom origin) id = some n ↔ g.IsDistance origin id n := by
  have levels : levelOf ((Side.start g origin).levels g) id = some n ↔
      g.IsDistance origin id (0 + n) := (Side.Reaches.start g origin).levelOf_levels sound
  rwa [Nat.zero_add] at levels

theorem levelOf_rootLevels {g : Graph} (sound : g.Sound) {id : String} {n : Nat} :
    levelOf g.rootLevels id = some n ↔ g.root ∈ g.ids ∧ g.IsDistance g.root id n := by
  unfold rootLevels
  split
  · rename_i present
    rw [levelOf_levelsFrom sound, and_iff_right (hasNode_iff.mp present)]
  · rename_i absent
    simp [levelOf, hasNode_iff.not.mp absent]

theorem levelOf_rootLevels_eq_none_iff {g : Graph} (sound : g.Sound) {id : String} :
    levelOf g.rootLevels id = none ↔ ¬ (g.root ∈ g.ids ∧ ∃ n, g.Chain n g.root id) := by
  rw [Option.eq_none_iff_forall_ne_some]
  constructor
  · rintro none ⟨present, n, chain⟩
    obtain ⟨m, _, least⟩ := chain.exists_isDistance
    exact none m ((levelOf_rootLevels sound).mpr ⟨present, least⟩)
  · intro unreachable n found
    obtain ⟨present, least⟩ := (levelOf_rootLevels sound).mp found
    exact unreachable ⟨present, n, least.chain⟩

/-- The depths of a graph are its exact undirected distances from the root: every node has one
entry, which is the length of the shortest chains if there is a chain, and none otherwise. -/
theorem depths_isLeast {g : Graph} (reached : g.Reached) :
    g.depths.map Prod.fst = g.ids ∧ g.ids.Nodup ∧
      ∀ id depth, (id, depth) ∈ g.depths →
        (∀ n, depth = some n ↔
          g.hasNode g.root = true ∧ IsLeast {k | g.Chain k g.root id} n) ∧
        (depth = none ↔ ¬ (g.hasNode g.root = true ∧ ∃ k, g.Chain k g.root id)) := by
  have sound := reached.sound
  refine ⟨by simp [depths, Function.comp_def], sound.ids_nodup, ?_⟩
  intro id depth entry
  obtain ⟨other, _, same⟩ := List.mem_map.mp entry
  obtain ⟨rfl, rfl⟩ := Prod.mk.inj same
  simp only [hasNode_iff]
  exact ⟨fun n => levelOf_rootLevels sound, levelOf_rootLevels_eq_none_iff sound⟩

/-- An undated edge of no particular kind. -/
def arc (source target credential : String) : Edge :=
  ⟨source, target, .other, credential, none, false⟩

/-- A root, one identity that vouches for it in return, one behind that, and an island. -/
def ring : Graph where
  root := "R"
  nodes := ["R", "A", "B", "I"].map fun id => Node.ofMention id "member" {}
  edges := [arc "R" "A" "1", arc "A" "R" "2", arc "B" "A" "3", arc "I" "I" "4"]

theorem ring_reached : ring.Reached := by
  have nodes := ((((Reached.empty "R" none "member").addNode "R" {}).addNode "A" {}).addNode "B"
    {}).addNode "I" {}
  have out := @Reached.addEdge _ _ (arc "R" "A" "1") true nodes rfl
  have back := @Reached.addEdge _ _ (arc "A" "R" "2") true out rfl
  have behind := @Reached.addEdge _ _ (arc "B" "A" "3") true back rfl
  exact @Reached.addEdge _ _ (arc "I" "I" "4") true behind rfl

theorem depths_isLeast_ring :
    ring.Reached ∧ ring.depths = [("R", some 0), ("A", some 1), ("B", some 2), ("I", none)] ∧
      IsLeast {k | ring.Chain k "R" "B"} 2 ∧ ¬ ∃ k, ring.Chain k "R" "I" := by
  have depths : ring.depths = [("R", some 0), ("A", some 1), ("B", some 2), ("I", none)] := by cbv
  obtain ⟨_, _, entries⟩ := depths_isLeast ring_reached
  rw [depths] at entries
  have behind := ((entries "B" (some 2) (by simp)).1 2).mp rfl
  have island := (entries "I" none (by simp)).2.mp rfl
  exact ⟨ring_reached, depths, behind.2, fun chain => island ⟨rfl, chain⟩⟩

end Graph

end Vouch
