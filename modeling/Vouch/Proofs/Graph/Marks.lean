import Vouch.Graph.Writing
import Vouch.Proofs.Graph.InStep
import Vouch.Proofs.Score.Interior

namespace Vouch

/-- An edge without its mark. -/
def Edge.unmarked (e : Edge) : Edge := { e with reciprocal := false }

/-- By the keys of all edges, some edge runs back between two identities that are not the same. -/
def isAnswered (keys : List (String × String × String)) (key : String × String × String) : Bool :=
  key.1 ≠ key.2.1 && keys.any fun other => other.1 = key.2.1 && other.2.1 = key.1

theorem isAnswered_iff {edges : List Edge} {e : Edge} :
    isAnswered (edges.map Edge.key) e.key = true ↔
      e.source ≠ e.target ∧ ∃ f ∈ edges, f.source = e.target ∧ f.target = e.source := by
  simp only [isAnswered, List.any_map, Bool.and_eq_true, decide_eq_true_eq, List.any_eq_true,
    Function.comp_apply]
  rfl

theorem set_take_append_drop {α : Type} {xs ys : List α} {k : Nat} (inside : k < xs.length)
    {y : α} (there : ys[k]? = some y) :
    (ys.take k ++ xs.drop k).set k y = ys.take (k + 1) ++ xs.drop (k + 1) := by
  obtain ⟨bound, rfl⟩ := List.getElem?_eq_some_iff.mp there
  have length : (ys.take k).length = k := List.length_take_of_le bound.le
  rw [List.set_append_right _ _ length.le, length, Nat.sub_self, List.drop_eq_getElem_cons inside,
    List.set_cons_zero, List.take_succ_eq_append_getElem bound, List.append_assoc,
    List.singleton_append]

theorem countP_reciprocal_singleton (e : Edge) :
    [e].countP Edge.reciprocal = e.reciprocal.toNat := by
  rw [List.countP_singleton]
  cases e.reciprocal <;> rfl

namespace Writing

variable {M : Type} {net : Multigraph M} {l : Ledger M}

theorem markAt_run {place : Nat} {e : Edge} (there : l.edges[place]? = some e) (count : Nat) :
    (markAt net count place).run l =
      (count + (l.isReciprocal net e.source e.target).toNat,
        { l with
          edges := l.edges.set place
            { e with reciprocal := l.isReciprocal net e.source e.target } }) := by
  simp only [markAt, StateT.run_bind, StateT.run_get, pure_bind, there, StateT.run_set,
    StateT.run_pure]
  rfl

/-- At each place the edges before are marked and the others are as they were. This is kept up by
the step to the next place, as no mark has a say in whether another edge is reciprocal. -/
theorem markAt_passed {k : Nat} (here : k < l.edges.length) :
    (markAt net (((l.mark net).edges.take k).countP Edge.reciprocal) k).run
        { l with edges := (l.mark net).edges.take k ++ l.edges.drop k } =
      (((l.mark net).edges.take (k + 1)).countP Edge.reciprocal,
        { l with edges := (l.mark net).edges.take (k + 1) ++ l.edges.drop (k + 1) }) := by
  have bound : k < (l.mark net).edges.length := by rwa [Ledger.mark, List.length_map]
  have marked : (l.mark net).edges[k]? = some { l.edges[k] with
      reciprocal := l.isReciprocal net l.edges[k].source l.edges[k].target } := by
    rw [Ledger.mark, List.getElem?_map, List.getElem?_eq_getElem here, Option.map_some]
  have passed : ((l.mark net).edges.take k).length = k := List.length_take_of_le bound.le
  have next : ((l.mark net).edges.take k ++ l.edges.drop k)[k]? = some l.edges[k] := by
    rw [List.getElem?_append_right passed.le, passed, Nat.sub_self, List.getElem?_drop,
      Nat.add_zero, List.getElem?_eq_getElem here]
  rw [← set_take_append_drop here marked, List.take_add_one, marked, Option.toList_some,
    List.countP_append, countP_reciprocal_singleton]
  exact markAt_run next _

theorem foldlM_markAt {k : Nat} (inside : k ≤ l.edges.length) :
    ((List.range k).foldlM (markAt net) 0).run l =
      (((l.mark net).edges.take k).countP Edge.reciprocal,
        { l with edges := (l.mark net).edges.take k ++ l.edges.drop k }) := by
  induction k with
  | zero => rfl
  | succ k ih =>
    have before := ih (by omega)
    rw [List.range_succ, List.foldlM_append, StateT.run_bind, before, ← markAt_passed inside]
    simp only [List.foldlM_cons, List.foldlM_nil, bind_pure]
    rfl

theorem mark_run (net : Multigraph M) (l : Ledger M) :
    (mark net).run l = ((l.mark net).edges.countP Edge.reciprocal, l.mark net) := by
  have opened : (mark net).run l = ((List.range l.edges.length).foldlM (markAt net) 0).run l := rfl
  have length : (l.mark net).edges.length = l.edges.length := List.length_map _
  rw [opened, foldlM_markAt le_rfl, ← length, List.take_length, length, List.drop_length,
    List.append_nil]
  rfl

end Writing

namespace Ledger

variable {M : Type} {net : Multigraph M} {l : Ledger M}

theorem mark_mark (net : Multigraph M) (l : Ledger M) : (l.mark net).mark net = l.mark net := by
  simp only [mark, List.map_map]
  rfl

namespace Consistent

theorem isReciprocal_eq_isAnswered (lawful : net.Lawful) (consistent : l.Consistent net) {e : Edge}
    (listed : e ∈ l.edges) :
    l.isReciprocal net e.source e.target = isAnswered (l.edges.map Edge.key) e.key := by
  have there : l.view.links e.source e.target = true := by
    simpa [Graph.links] using ⟨e, listed, rfl, rfl⟩
  rw [consistent.isReciprocal_eq lawful, Graph.isReciprocal, there, Bool.and_true, Graph.links,
    isAnswered, List.any_map]
  rfl

/-- Marked edges are the edges as they were, but for marks that their keys decide. -/
theorem mark_edges (lawful : net.Lawful) (consistent : l.Consistent net) :
    (l.mark net).edges = l.edges.map fun e =>
      { e with reciprocal := isAnswered (l.edges.map Edge.key) e.key } := by
  refine List.map_congr_left fun e listed => ?_
  rw [consistent.isReciprocal_eq_isAnswered lawful listed]

theorem mark_reciprocal_iff (lawful : net.Lawful) (consistent : l.Consistent net) {e : Edge}
    (listed : e ∈ (l.mark net).edges) : e.reciprocal = true ↔ e.source ≠ e.target ∧
      ∃ f ∈ (l.mark net).edges, f.source = e.target ∧ f.target = e.source := by
  have keys : (l.mark net).edges.map Edge.key = l.edges.map Edge.key := mark_keys net l
  rw [← isAnswered_iff, keys]
  rw [consistent.mark_edges lawful] at listed
  obtain ⟨f, _, rfl⟩ := List.mem_map.mp listed
  rfl

/-- What is left of the edges in a restriction is marked as it would be in the whole. -/
theorem part_edges (lawful : net.Lawful) (consistent : l.Consistent net) {part : Ledger M}
    {ids : List String} (shows : part.view = l.view.restrict ids true) :
    part.edges = (l.mark net).edges.filter fun e => e.source ∈ ids && e.target ∈ ids := by
  have edges := (Graph.mark_marked l.view).restrict_edges ids
  rwa [Graph.restrict_mark, ← shows, ← consistent.mark_view lawful] at edges

end Consistent

/-- What comes of settling all marks anew, one edge after the other. Nothing is touched but marks,
the keys of the edges are all that counts for these, and a part of the ledger comes to the same
marks as the whole. -/
structure FreshlyMarked (net : Multigraph M) (l : Ledger M) (count : Nat) (l' : Ledger M) :
    Prop where
  shows : l'.view = l.view.mark
  rest : l' = { l with edges := l'.edges }
  unmarked : l'.edges.map Edge.unmarked = l.edges.map Edge.unmarked
  marks : l'.edges.map Edge.reciprocal =
    (l.edges.map Edge.key).map (isAnswered (l.edges.map Edge.key))
  reciprocal_iff : ∀ e ∈ l'.edges, e.reciprocal = true ↔
    e.source ≠ e.target ∧ ∃ f ∈ l'.edges, f.source = e.target ∧ f.target = e.source
  returned : ∀ e ∈ l'.edges, e.reciprocal = true →
    ∀ f ∈ l'.edges, f.source = e.target → f.target = e.source → f.reciprocal = true
  counted : count = l'.edges.countP Edge.reciprocal
  settled : (Writing.mark net).run l' = (count, l')
  part : ∀ ids, ∃ part, l.restrict net ids true = .ok part ∧
    part.edges = l'.edges.filter fun e => e.source ∈ ids && e.target ∈ ids

theorem Consistent.freshlyMarked (lawful : net.Lawful) (consistent : l.Consistent net) :
    l.FreshlyMarked net ((l.mark net).edges.countP Edge.reciprocal) (l.mark net) where
  shows := consistent.mark_view lawful
  rest := rfl
  unmarked := by
    rw [Ledger.mark, List.map_map]
    rfl
  marks := by
    rw [consistent.mark_edges lawful, List.map_map, List.map_map]
    rfl
  reciprocal_iff _ listed := consistent.mark_reciprocal_iff lawful listed
  returned e listed marked f listed' source target := by
    obtain ⟨different, -⟩ := (consistent.mark_reciprocal_iff lawful listed).mp marked
    refine (consistent.mark_reciprocal_iff lawful listed').mpr
      ⟨?_, e, listed, target.symm, source.symm⟩
    rw [source, target]
    exact different.symm
  counted := rfl
  settled := by rw [Writing.mark_run, mark_mark]
  part ids := by
    obtain ⟨part, run, -, shows⟩ := consistent.restrict lawful ids true
    exact ⟨part, run, consistent.part_edges lawful shows⟩

/-- Whatever has been asked of a ledger, and whatever its marks were, settling them anew comes to
this. -/
theorem run_freshlyMarked (lawful : net.Lawful) (root : String) (builtAt : Option Timestamp)
    (defaultRole : String) (calls : List Call) :
    ∃ count l', (Writing.mark net).run (run net root builtAt defaultRole calls) = (count, l') ∧
      (run net root builtAt defaultRole calls).FreshlyMarked net count l' :=
  ⟨_, _, Writing.mark_run net _,
    ((blank_consistent lawful root builtAt defaultRole).calls lawful calls).1.freshlyMarked lawful⟩

/-- A relation that was marked before its answer came, and one to oneself that came with a mark. -/
def oddMarks : List Call :=
  [.addNode "R" {}, .addNode "A" {}, .addEdge (Graph.arc "R" "A" "1"), .mark,
    .addEdge (Graph.arc "A" "R" "2"), .addEdge { Graph.arc "A" "A" "3" with reciprocal := true }]

theorem run_freshlyMarked_oddMarks :
    Strands.multigraph.Lawful ∧
      (run Strands.multigraph "R" none "member" oddMarks).edges.map Edge.reciprocal =
        [false, false, true] ∧
      ∃ l', (Writing.mark Strands.multigraph).run
          (run Strands.multigraph "R" none "member" oddMarks) = (2, l') ∧
        (run Strands.multigraph "R" none "member" oddMarks).FreshlyMarked Strands.multigraph 2 l' ∧
        l'.edges.map Edge.reciprocal = [true, true, false] := by
  have before : (run Strands.multigraph "R" none "member" oddMarks).edges =
      [Graph.arc "R" "A" "1", Graph.arc "A" "R" "2",
        { Graph.arc "A" "A" "3" with reciprocal := true }] := by decide +kernel
  obtain ⟨count, l', marked, fresh⟩ :=
    run_freshlyMarked Strands.multigraph_lawful "R" none "member" oddMarks
  have marks : l'.edges.map Edge.reciprocal = [true, true, false] := by
    rw [fresh.marks, before]
    decide +kernel
  have two : count = 2 := by
    have counted := congrArg (List.count true) marks
    rw [List.count, List.countP_map] at counted
    rw [fresh.counted]
    simpa [Function.comp_def] using counted
  subst two
  exact ⟨Strands.multigraph_lawful, by rw [before]; rfl, l', marked, fresh, marks⟩

end Ledger

end Vouch
