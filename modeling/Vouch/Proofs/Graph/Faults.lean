import Vouch.Proofs.Graph.Built
import Vouch.Proofs.Graph.Writing

namespace Vouch

namespace Ledger

variable {M : Type} {net : Multigraph M} {l l' : Ledger M} {id : String} {m : Mention}
  {fault : GraphFault}

theorem addEdge_eq_error_iff {e : Edge} : l.addEdge net e = .error fault ↔
    l.holds e.source = false ∧ fault = .unknownEndpoint e.key e.source ∨
      l.holds e.source = true ∧ l.holds e.target = false ∧
        fault = .unknownEndpoint e.key e.target := by
  rw [addEdge]
  cases l.holds e.source <;> cases l.holds e.target <;> cases l.hasEdge net e.key <;>
    simp [eq_comm]

theorem addNode_fails_iff : (l.addNode net id m).2 = .error fault ↔
    fault = .incomparableTimes ∧ ∃ n s t, l.node? id = some n ∧ m.joinedAt = some s ∧
      n.joinedAt = some t ∧ s.offset.isSome ≠ t.offset.isSome := by
  cases found : l.node? id with
  | none => simp [addNode, found]
  | some n =>
    have failed : (l.addNode net id m).2 = .error fault ↔ (n.absorb m).2 = .error fault := by
      rw [addNode_of_node? found]
      cases (n.absorb m).2 <;> simp [Except.map]
    rw [failed, Node.absorb_eq_error_iff, earlier?_eq_error_iff]
    simp

/-- A mention that fails has renamed the node, and has done nothing else. -/
theorem addNode_fst_of_error (failed : (l.addNode net id m).2 = .error fault) :
    ∃ n, l.node? id = some n ∧ (l.addNode net id m).1 = l.put id (n.rename m) := by
  obtain ⟨-, n, s, t, found, -⟩ := addNode_fails_iff.mp failed
  rw [addNode_of_node? found] at failed ⊢
  have absorbed : (n.absorb m).2 = .error fault := by
    cases result : (n.absorb m).2 with
    | ok done => simp [result, Except.map] at failed
    | error cause => simpa [result, Except.map] using failed
  exact ⟨n, found, by rw [Node.absorb_of_error absorbed]⟩

/-- What a mention or an edge leaves of a ledger when it is written step by step and fails. An edge
leaves everything as it was. A mention fails where the times cannot be compared. By then its texts
are written, so that everything is as it was just if the node had them before. -/
structure AfterFaults (net : Multigraph M) (l : Ledger M) : Prop where
  addEdge_shows : ∀ e, l.view.addEdge e = ((Writing.addEdge net e).outcome l).2.map fun added =>
    (((Writing.addEdge net e).outcome l).1.view, added)
  addEdge_fails_iff : ∀ e fault, ((Writing.addEdge net e).outcome l).2 = .error fault ↔
    l.holds e.source = false ∧ fault = .unknownEndpoint e.key e.source ∨
      l.holds e.source = true ∧ l.holds e.target = false ∧
        fault = .unknownEndpoint e.key e.target
  addEdge_leaves : ∀ e l' fault, (Writing.addEdge net e).outcome l = (l', .error fault) → l' = l
  addNode_shows : ∀ id m, l.view.addNode id m =
    (((Writing.addNode net id m).outcome l).1.view, ((Writing.addNode net id m).outcome l).2)
  addNode_fails_iff : ∀ id m fault, ((Writing.addNode net id m).outcome l).2 = .error fault ↔
    fault = .incomparableTimes ∧ ∃ n s t, l.node? id = some n ∧ m.joinedAt = some s ∧
      n.joinedAt = some t ∧ s.offset.isSome ≠ t.offset.isSome
  addNode_leaves : ∀ id m l' fault, (Writing.addNode net id m).outcome l = (l', .error fault) →
    ∃ n, l.node? id = some n ∧ l' = l.put id (n.rename m)
  addNode_leaves_iff : ∀ id m l' fault, (Writing.addNode net id m).outcome l = (l', .error fault) →
    (l' = l ↔ ∃ n, l.node? id = some n ∧ n.Knows m)

namespace Consistent

theorem ids_nodup (consistent : l.Consistent net) : (l.nodes.map Prod.fst).Nodup := by
  rw [keys_eq consistent.stored]
  exact consistent.sound.ids_nodup

theorem written_node (consistent : l.Consistent net) (id : String) (m : Mention) :
    (Writing.addNode net id m).outcome l = l.addNode net id m :=
  Writing.addNode_outcome consistent.ids_nodup id m

theorem written_node_leaves (consistent : l.Consistent net)
    (broken : (Writing.addNode net id m).outcome l = (l', .error fault)) :
    ∃ n, l.node? id = some n ∧ l' = l.put id (n.rename m) := by
  rw [consistent.written_node] at broken
  have left := addNode_fst_of_error (congrArg Prod.snd broken)
  rwa [broken] at left

theorem afterFaults (consistent : l.Consistent net) : l.AfterFaults net where
  addEdge_shows e := by
    rw [Writing.addEdge_outcome, ← consistent.addEdge_view]
    cases l.addEdge net e <;> rfl
  addEdge_fails_iff e fault := by
    rw [← @addEdge_eq_error_iff M net, Writing.addEdge_outcome]
    cases l.addEdge net e <;> simp
  addEdge_leaves e l' fault broken := by
    rw [Writing.addEdge_outcome] at broken
    cases run : l.addEdge net e with
    | ok result => simp [run] at broken
    | error cause => simpa [run, eq_comm] using congrArg Prod.fst broken
  addNode_shows id m := by
    obtain ⟨shown, result⟩ := consistent.addNode_view id m
    rw [consistent.written_node, shown, result]
  addNode_fails_iff id m fault := by rw [consistent.written_node, addNode_fails_iff]
  addNode_leaves _ _ _ _ broken := consistent.written_node_leaves broken
  addNode_leaves_iff id m l' fault broken := by
    obtain ⟨n, found, rfl⟩ := consistent.written_node_leaves broken
    rw [put_eq_self_iff consistent.ids_nodup found, Node.rename_eq_self_iff, found]
    simp

end Consistent

/-- Whatever has been asked of a ledger, this is what it is after a mention or an edge that fails. -/
theorem run_afterFaults (lawful : net.Lawful) (root : String) (builtAt : Option Timestamp)
    (defaultRole : String) (calls : List Call) :
    (run net root builtAt defaultRole calls).AfterFaults net :=
  ((blank_consistent lawful root builtAt defaultRole).calls lawful calls).1.afterFaults

/-- An identity that joined at a time whose offset is unknown. -/
def arrival : List Call :=
  [.addNode "A" { label := some "Ada", joinedAt := some ⟨.dawn, none⟩ }]

/-- The ledger that consists of it. -/
def arrived : Ledger Strands := run Strands.multigraph "R" none "member" arrival

/-- A mention of it by some name, at a time whose offset is known. -/
def greeting (name : String) : Mention :=
  { label := some name, joinedAt := some (.ofUtc .dawn) }

theorem arrived_node? :
    arrived.node? "A" = some ⟨"A", some "Ada", "member", some ⟨.dawn, none⟩, 0, none⟩ := by
  decide +kernel

theorem AfterFaults.greeting_fails (after : arrived.AfterFaults Strands.multigraph)
    (name : String) : ((Writing.addNode Strands.multigraph "A" (greeting name)).outcome arrived).2 =
      .error .incomparableTimes :=
  (after.addNode_fails_iff "A" (greeting name) _).mpr
    ⟨rfl, _, _, _, arrived_node?, rfl, rfl, by decide⟩

/-- Greeted by its own name, the identity stays as it is. -/
theorem run_afterFaults_arrival :
    Strands.multigraph.Lawful ∧ arrived.AfterFaults Strands.multigraph ∧
      (Writing.addNode Strands.multigraph "A" (greeting "Ada")).outcome arrived =
        (arrived, .error .incomparableTimes) := by
  have after := run_afterFaults Strands.multigraph_lawful "R" none "member" arrival
  have fails := AfterFaults.greeting_fails after "Ada"
  have same : Node.rename ⟨"A", some "Ada", "member", some ⟨.dawn, none⟩, 0, none⟩
      (greeting "Ada") = ⟨"A", some "Ada", "member", some ⟨.dawn, none⟩, 0, none⟩ := by
    decide +kernel
  have stays := (after.addNode_leaves_iff "A" (greeting "Ada") _ _ (Prod.ext rfl fails)).mpr
    ⟨_, arrived_node?, Node.rename_eq_self_iff.mp same⟩
  exact ⟨Strands.multigraph_lawful, after, Prod.ext stays fails⟩

/-- Greeted by another name, the identity keeps that name although the greeting fails. -/
theorem not_addNode_leaves :
    ¬ ∀ (calls : List Call) (id : String) (m : Mention) (l' : Ledger Strands) (fault : GraphFault),
      (Writing.addNode Strands.multigraph id m).outcome
          (run Strands.multigraph "R" none "member" calls) = (l', .error fault) →
        l' = run Strands.multigraph "R" none "member" calls := by
  intro unchanged
  have blank := blank_consistent Strands.multigraph_lawful "R" none "member"
  have after : arrived.AfterFaults Strands.multigraph :=
    (blank.calls Strands.multigraph_lawful arrival).1.afterFaults
  have broken := Prod.ext rfl (after.greeting_fails "Eve")
  have stays := unchanged arrival "A" (greeting "Eve") _ _ broken
  obtain ⟨n, found, knows⟩ := (after.addNode_leaves_iff "A" (greeting "Eve") _ _ broken).mp stays
  rw [arrived_node?] at found
  cases found
  exact absurd (knows.label "Eve" (by decide)) (by decide)

end Ledger

end Vouch
