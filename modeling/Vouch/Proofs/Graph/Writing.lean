import Vouch.Graph.Writing
import Vouch.Proofs.Graph.Ledger

namespace Vouch

theorem earlier?_eq_error_iff {a b : Option Timestamp} {fault : GraphFault} :
    earlier? a b = .error fault ↔ fault = .incomparableTimes ∧
      ∃ s t, a = some s ∧ b = some t ∧ s.offset.isSome ≠ t.offset.isSome := by
  cases a with
  | none => simp [earlier?]
  | some s =>
    cases b with
    | none => simp [earlier?]
    | some t =>
      by_cases alike : s.offset.isSome = t.offset.isSome <;>
        simp [earlier?, Timestamp.isBefore?, alike, eq_comm]

namespace Node

/-- A mention has no text that a node does not have already. -/
structure Knows (n : Node) (m : Mention) : Prop where
  label : ∀ text, filled m.label = some text → n.label = some text
  role : ∀ text, filled m.role = some text → n.role = text
  status : ∀ text, filled m.status = some text → n.status = some text

theorem rename_eq_self_iff {n : Node} {m : Mention} : n.rename m = n ↔ n.Knows m := by
  have optional : ∀ {new old : Option String},
      new.or old = old ↔ ∀ text, new = some text → old = some text := by
    intro new old
    cases new <;> simp [eq_comm]
  have plain : ∀ {new : Option String} {old : String},
      new.getD old = old ↔ ∀ text, new = some text → old = text := by
    intro new old
    cases new <;> simp [eq_comm]
  have fields : n.rename m = n ↔ (filled m.label).or n.label = n.label ∧
      (filled m.role).getD n.role = n.role ∧ (filled m.status).or n.status = n.status := by
    cases n
    simp [rename]
  rw [fields, optional, plain, optional]
  exact ⟨fun ⟨label, role, status⟩ => ⟨label, role, status⟩,
    fun knows => ⟨knows.label, knows.role, knows.status⟩⟩

theorem absorb_eq_error_iff {n : Node} {m : Mention} {fault : GraphFault} :
    (n.absorb m).2 = .error fault ↔ earlier? m.joinedAt n.joinedAt = .error fault := by
  unfold absorb
  split <;> rename_i compared <;> simp [compared]

theorem absorb_of_error {n : Node} {m : Mention} {fault : GraphFault}
    (broken : (n.absorb m).2 = .error fault) : (n.absorb m).1 = n.rename m := by
  rw [absorb_eq_error_iff] at broken
  rw [absorb, broken]

end Node

namespace Ledger

variable {M : Type} {net : Multigraph M} {l : Ledger M} {id : String}

theorem put_put (l : Ledger M) (id : String) (n n' : Node) : (l.put id n).put id n' = l.put id n' := by
  simp only [put, List.map_map]
  congr 1
  refine List.map_congr_left fun entry _ => ?_
  by_cases here : entry.1 = id <;> simp [here]

/-- Keys of their own set a node apart from all others. -/
theorem exists_nodes_eq {n : Node} (distinct : (l.nodes.map Prod.fst).Nodup)
    (found : l.node? id = some n) :
    ∃ front back, l.nodes = front ++ (id, n) :: back ∧ ∀ entry ∈ front ++ back, entry.1 ≠ id := by
  obtain ⟨front, back, split, -⟩ := List.lookup_eq_some_iff.mp found
  refine ⟨front, back, split, fun entry member same => ?_⟩
  rw [split, List.map_append, List.map_cons, List.nodup_middle, List.nodup_cons] at distinct
  rw [← List.map_append] at distinct
  exact distinct.1 (List.mem_map.mpr ⟨entry, member, same⟩)

theorem put_nodes {front back : List (String × Node)} {n : Node}
    (split : l.nodes = front ++ (id, n) :: back) (others : ∀ entry ∈ front ++ back, entry.1 ≠ id)
    (n' : Node) : (l.put id n').nodes = front ++ (id, n') :: back := by
  have kept : ∀ nodes : List (String × Node), (∀ entry ∈ nodes, entry.1 ≠ id) →
      (nodes.map fun entry => if entry.1 = id then (id, n') else entry) = nodes := by
    intro nodes other
    exact (List.map_congr_left fun entry member => if_neg (other entry member)).trans nodes.map_id
  simp only [put, split, List.map_append, List.map_cons, if_true]
  rw [kept front fun entry member => others entry (List.mem_append_left back member),
    kept back fun entry member => others entry (List.mem_append_right front member)]

/-- A node that is written as it is stays as it is, and any other one makes a difference. -/
theorem put_eq_self_iff {n n' : Node} (distinct : (l.nodes.map Prod.fst).Nodup)
    (found : l.node? id = some n) : l.put id n' = l ↔ n' = n := by
  obtain ⟨front, back, split, others⟩ := exists_nodes_eq distinct found
  have nodes := put_nodes split others n'
  constructor
  · intro same
    rw [same, split, List.append_cancel_left_eq, List.cons.injEq] at nodes
    exact (Prod.mk.inj nodes.1).2.symm
  · rintro rfl
    rw [← split] at nodes
    exact congrArg (fun nodes => { l with nodes }) nodes

theorem addNode_of_node? {n : Node} {m : Mention} (found : l.node? id = some n) :
    l.addNode net id m = (l.put id (n.absorb m).1, (n.absorb m).2.map fun _ => (n.absorb m).1) := by
  simp only [addNode, found]
  rfl

end Ledger

namespace Writing

variable {M : Type} {net : Multigraph M} {l l' : Ledger M} {α β : Type}

theorem outcome_pure (a : α) : (pure a : Writing M α).outcome l = (l, .ok a) := rfl

theorem outcome_bind_ok {work : Writing M α} {a : α} (done : work.outcome l = (l', .ok a))
    (next : α → Writing M β) : (work >>= next).outcome l = (next a).outcome l' := by
  have run : work.run.run l = (.ok a, l') := congrArg Prod.swap done
  simp only [outcome, ExceptT.run_bind, StateT.run_bind, run]
  rfl

theorem outcome_bind_error {work : Writing M α} {fault : GraphFault}
    (broken : work.outcome l = (l', .error fault)) (next : α → Writing M β) :
    (work >>= next).outcome l = (l', .error fault) := by
  have run : work.run.run l = (.error fault, l') := congrArg Prod.swap broken
  simp only [outcome, ExceptT.run_bind, StateT.run_bind, run]
  rfl

theorem outcome_get (next : Ledger M → Writing M β) :
    (get >>= next).outcome l = (next l).outcome l := rfl

theorem outcome_modify (change : Ledger M → Ledger M) (next : PUnit → Writing M β) :
    (modify change >>= next).outcome l = (next ⟨⟩).outcome (change l) := rfl

theorem outcome_put (l : Ledger M) (id : String) (n : Node) :
    (put id n).outcome l = (l.put id n, .ok n) := rfl

theorem outcome_ofExcept (result : Except GraphFault α) :
    (MonadExcept.ofExcept result : Writing M α).outcome l = (l, result) := by
  cases result <;> rfl

/-- Text by text, a node that stands written is renamed in its place. -/
theorem outcome_putText (l : Ledger M) (id : String) (n : Node) (text : Option String)
    (renew : String → Node) :
    (putText id n text renew).outcome (l.put id n) =
      (l.put id ((filled text).elim n renew), .ok ((filled text).elim n renew)) := by
  unfold putText
  cases filled text with
  | none => rfl
  | some text => rw [outcome_put, Ledger.put_put, Option.elim_some]

theorem outcome_putTexts (l : Ledger M) (id : String) (n : Node) (m : Mention) :
    (putTexts id n m).outcome (l.put id n) = (l.put id (n.rename m), .ok (n.rename m)) := by
  rw [putTexts, outcome_bind_ok (outcome_putText ..), outcome_bind_ok (outcome_putText ..),
    outcome_putText, Node.rename]
  cases filled m.label <;> cases filled m.role <;> cases filled m.status <;> rfl

/-- Written step by step, a mention comes to what it comes to at once. -/
theorem addNode_outcome (distinct : (l.nodes.map Prod.fst).Nodup) (id : String) (m : Mention) :
    (addNode net id m).outcome l = l.addNode net id m := by
  cases found : l.node? id with
  | none =>
    simp only [addNode, outcome_get, found, outcome_modify, outcome_pure, Ledger.addNode]
  | some n =>
    have texts := outcome_putTexts l id n m
    rw [(Ledger.put_eq_self_iff distinct found).mpr rfl] at texts
    have joined : (n.rename m).joinedAt = n.joinedAt := rfl
    simp only [addNode, outcome_get, found]
    rw [outcome_bind_ok texts, Ledger.addNode_of_node? found, Node.absorb, joined]
    cases earlier? m.joinedAt n.joinedAt with
    | error fault => rfl
    | ok joinedAt =>
      rw [outcome_bind_ok (outcome_ofExcept ..), outcome_bind_ok (outcome_put ..), outcome_put,
        Ledger.put_put, Ledger.put_put]
      rfl

theorem outcome_require (key : String × String × String) (endpoint : String) :
    (require key endpoint).outcome l =
      (l, if l.holds endpoint then .ok ⟨⟩ else .error (.unknownEndpoint key endpoint)) := by
  rw [require, outcome_get]
  cases l.holds endpoint <;> rfl

/-- Written step by step, an edge comes to what it comes to at once. Whatever breaks off, breaks off
before the first write. -/
theorem addEdge_outcome (net : Multigraph M) (l : Ledger M) (e : Edge) :
    (addEdge net e).outcome l =
      match l.addEdge net e with
      | .ok (l', added) => (l', .ok added)
      | .error fault => (l, .error fault) := by
  have source := outcome_require (l := l) e.key e.source
  have target := outcome_require (l := l) e.key e.target
  rw [addEdge, Ledger.addEdge]
  cases from? : l.holds e.source with
  | false =>
    rw [from?] at source
    exact outcome_bind_error source _
  | true =>
    rw [from?] at source
    rw [outcome_bind_ok source]
    cases to? : l.holds e.target with
    | false =>
      rw [to?] at target
      exact outcome_bind_error target _
    | true =>
      rw [to?] at target
      rw [outcome_bind_ok target, outcome_get]
      cases l.hasEdge net e.key <;> rfl

end Writing

end Vouch
