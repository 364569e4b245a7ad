import Mathlib.Data.List.Induction
import Mathlib.Data.List.Perm.Basic
import Vouch.Proofs.Graph.Distance
import Vouch.Score.Standing

namespace Vouch

theorem eraseDups_nodup {α : Type} [DecidableEq α] (xs : List α) : xs.eraseDups.Nodup := by
  induction xs using List.reverseRecOn with
  | nil => exact .nil
  | append_singleton xs x ih =>
    rw [List.eraseDups_append]
    by_cases old : x ∈ xs
    · simpa [List.removeAll, old] using ih
    · have fresh : ([x].removeAll xs).eraseDups = [x] := by
        simp [List.removeAll, old, List.eraseDups_cons]
      rw [fresh]
      refine List.nodup_append.mpr ⟨ih, List.nodup_singleton x, ?_⟩
      rintro a inside b new rfl
      rw [List.mem_singleton.mp new, List.mem_eraseDups] at inside
      exact old inside

theorem eraseDups_perm {α : Type} [DecidableEq α] {xs ys : List α}
    (same : ∀ x, x ∈ xs ↔ x ∈ ys) : xs.eraseDups.Perm ys.eraseDups := by
  rw [List.perm_ext_iff_of_nodup (eraseDups_nodup xs) (eraseDups_nodup ys)]
  intro x
  rw [List.mem_eraseDups, List.mem_eraseDups]
  exact same x

section

variable {α : Type} (group : α → String)

theorem flatMap_groups_cons (x : α) (xs : List α) :
    (((x :: xs).map group).eraseDups.flatMap fun id => (x :: xs).filter (group · = id)) =
      (x :: xs).filter (group · = group x) ++
        (((x :: xs).filter (¬ group · = group x)).map group).eraseDups.flatMap fun id =>
          ((x :: xs).filter (¬ group · = group x)).filter (group · = id) := by
  have others : ((x :: xs).filter (¬ group · = group x)).map group =
      (xs.map group).filter (! · == group x) := by
    rw [List.filter_cons_of_neg (by simp), List.filter_map]
    congr 1
    refine List.filter_congr fun y _ => ?_
    simp [Function.comp_apply, Bool.beq_eq_decide_eq]
  rw [List.map_cons, List.eraseDups_cons, List.flatMap_cons, others]
  congr 1
  refine List.flatMap_congr fun id member => ?_
  have different : id ≠ group x := by
    simpa using (List.mem_filter.mp (List.mem_eraseDups.mp member)).2
  rw [List.filter_filter]
  refine List.filter_congr fun y _ => ?_
  by_cases same : group y = id <;> simp [same, different]

/-- Grouping loses nothing and repeats nothing. -/
theorem flatMap_groups_perm (xs : List α) :
    ((xs.map group).eraseDups.flatMap fun id => xs.filter (group · = id)).Perm xs := by
  induction length : xs.length using Nat.strong_induction_on generalizing xs with
  | _ n ih =>
    cases xs with
    | nil => exact .nil
    | cons x xs =>
      rw [flatMap_groups_cons]
      have fewer : ((x :: xs).filter (¬ group · = group x)).length < n := by
        rw [List.filter_cons_of_neg (by simp), ← length, List.length_cons]
        exact Nat.lt_succ_of_le (List.length_filter_le _ _)
      refine ((ih _ fewer _ rfl).append_left _).trans ?_
      simpa using List.filter_append_perm (group · = group x) (x :: xs)

end

theorem groupEdges_perm (endpoint : Edge → String) (edges : List Edge) :
    (groupEdges endpoint edges).Perm edges :=
  flatMap_groups_perm endpoint edges

/-- What is topology about an edge: all but the kind of its relation. -/
def Edge.fact (e : Edge) : String × String × String × Option Timestamp × Bool :=
  (e.source, e.target, e.credential, e.issuedAt, e.reciprocal)

/-- What is topology about a node: all but its texts. -/
def Node.fact (n : Node) : String × Option Timestamp × Int := (n.id, n.joinedAt, n.credentials)

namespace Graph

/-- Two graphs with the same topology: their nodes are the same up to their texts, and their edges
up to the kinds of their relations. Neither has an identity twice. -/
structure SameTopology (g g' : Graph) : Prop where
  root : g.root = g'.root
  ids_nodup : g.ids.Nodup ∧ g'.ids.Nodup
  nodes : (g.nodes.map Node.fact).Perm (g'.nodes.map Node.fact)
  edges : (g.edges.map Edge.fact).Perm (g'.edges.map Edge.fact)

namespace SameTopology

variable {g g' : Graph}

theorem ids_perm (same : g.SameTopology g') : g.ids.Perm g'.ids := by
  have ids := same.nodes.map Prod.fst
  rwa [List.map_map, List.map_map] at ids

theorem edges_filter (same : g.SameTopology g')
    (p : String × String × String × Option Timestamp × Bool → Bool) :
    ((g.edges.filter fun e => p e.fact).map Edge.fact).Perm
      ((g'.edges.filter fun e => p e.fact).map Edge.fact) := by
  have kept := same.edges.filter p
  rwa [List.filter_map, List.filter_map] at kept

theorem exists_edge_iff (same : g.SameTopology g')
    (p : String × String × String × Option Timestamp × Bool → Prop) :
    (∃ e ∈ g.edges, p e.fact) ↔ ∃ e ∈ g'.edges, p e.fact := by
  have facts : (∃ x ∈ g.edges.map Edge.fact, p x) ↔ ∃ x ∈ g'.edges.map Edge.fact, p x := by
    simp only [same.edges.mem_iff]
  simpa using facts

theorem chain_iff (same : g.SameTopology g') {n : Nat} {a b : String} :
    g.Chain n a b ↔ g'.Chain n a b := by
  have touch : ∀ a b, g.Touch a b ↔ g'.Touch a b := fun a b =>
    same.exists_edge_iff fun x => x.1 = a ∧ x.2.1 = b ∨ x.1 = b ∧ x.2.1 = a
  constructor
  · intro chain
    induction chain with
    | here a => exact .here a
    | step _ last ih => exact ih.step ((touch _ _).mp last)
  · intro chain
    induction chain with
    | here a => exact .here a
    | step _ last ih => exact ih.step ((touch _ _).mpr last)

theorem levelOf_rootLevels_eq (same : g.SameTopology g') (sound : g.Sound) (sound' : g'.Sound)
    (id : String) : levelOf g.rootLevels id = levelOf g'.rootLevels id := by
  refine Option.ext fun n => ?_
  rw [levelOf_rootLevels sound, levelOf_rootLevels sound', same.ids_perm.mem_iff, ← same.root]
  simp only [IsDistance, same.chain_iff]

theorem incoming_facts (same : g.SameTopology g') (id : String) :
    ((g.incoming id).map Edge.fact).Perm ((g'.incoming id).map Edge.fact) := by
  have kept := same.edges_filter fun x => x.2.1 = id
  exact ((groupEdges_perm _ _).map _).trans (kept.trans ((groupEdges_perm _ _).map _).symm)

theorem outgoing_facts (same : g.SameTopology g') (id : String) :
    ((g.outgoing id).map Edge.fact).Perm ((g'.outgoing id).map Edge.fact) := by
  have kept := same.edges_filter fun x => x.1 = id
  exact ((groupEdges_perm _ _).map _).trans (kept.trans ((groupEdges_perm _ _).map _).symm)

/-- A standing counts edges and looks at their ends and marks, so it is the same. -/
theorem standing_eq (same : g.SameTopology g') (id : String) (depth : Option Nat) :
    g.standing id depth = g'.standing id depth := by
  have received := same.incoming_facts id
  have given := same.outgoing_facts id
  have incoming : (g.incoming id).length = (g'.incoming id).length := by
    simpa using received.length_eq
  have outgoing : (g.outgoing id).length = (g'.outgoing id).length := by
    simpa using given.length_eq
  have sources : ((g.incoming id).map Edge.source).Perm ((g'.incoming id).map Edge.source) := by
    simpa [Function.comp_def, Edge.fact] using received.map Prod.fst
  have issuers := (eraseDups_perm fun x => sources.mem_iff (a := x)).length_eq
  have reciprocal : (g.incoming id).countP Edge.reciprocal =
      (g'.incoming id).countP Edge.reciprocal := by
    have counted := received.countP_eq fun x => x.2.2.2.2
    rwa [List.countP_map, List.countP_map] at counted
  have rootIssued : ((g.incoming id).any fun e => e.source = g.root) =
      (g'.incoming id).any fun e => e.source = g.root := by
    have found : (((g.incoming id).map Edge.fact).any fun x => x.1 = g.root) =
        ((g'.incoming id).map Edge.fact).any fun x => x.1 = g.root := received.any_eq
    rwa [List.any_map, List.any_map] at found
  simp only [standing, incoming, outgoing, issuers, reciprocal, rootIssued, ← same.root]

end SameTopology

end Graph

/-- What is topology about a score: whose it is, the standing, and the value. -/
def Score.fact {α : Type} (s : Score α) : String × Standing × α := (s.id, s.standing, s.value)

theorem Graph.SameTopology.scores_perm {α : Type} [Add α] [Sub α] [Mul α] [NatCast α]
    {g g' : Graph} (same : g.SameTopology g') (sound : g.Sound) (sound' : g'.Sound)
    (w : Weights α) : ((g.scores w).map Score.fact).Perm ((g'.scores w).map Score.fact) := by
  have facts : ∀ h : Graph, (h.scores w).map Score.fact = h.ids.map fun id =>
      (id, h.standing id (levelOf h.rootLevels id),
        w.value (h.standing id (levelOf h.rootLevels id))) := by
    intro h
    simp only [scores, ids, List.map_map]
    rfl
  rw [facts, facts]
  -- Both graphs give an identity the same level, so that its standing is the same.
  have standings : ∀ id, g.standing id (levelOf g.rootLevels id) =
      g'.standing id (levelOf g'.rootLevels id) := fun id => by
    rw [same.levelOf_rootLevels_eq sound sound', same.standing_eq]
  simp only [standings]
  exact same.ids_perm.map _

end Vouch
