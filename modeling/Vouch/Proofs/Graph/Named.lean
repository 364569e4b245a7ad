import Vouch.Proofs.Credential.Interleaved
import Vouch.Proofs.Graph.Tally

namespace Vouch

namespace Node

theorem saidOf_append (id : String) (calls others : List (String × Mention)) :
    saidOf id (calls ++ others) = saidOf id calls ++ saidOf id others := by
  rw [saidOf, List.filter_append, List.map_append, ← saidOf, ← saidOf]

theorem saidOf_singleton (id other : String) (m : Mention) :
    saidOf id [(other, m)] = if other = id then [m] else [] := by
  by_cases same : other = id <;> simp [saidOf, same]

end Node

namespace Credential

/-- What a credential says about a party. Whoever is both of them is spoken of as the subject. -/
def mentionOf (root id : String) (c : Credential) : Mention :=
  if c.subject = id then c.subjectMention root else c.issuerMention

theorem mentionOf_sums (root id : String) (c : Credential) :
    (c.mentionOf root id).joinedAt = c.joinedAt ∧ (c.mentionOf root id).credentials = 1 := by
  unfold mentionOf
  split <;> exact ⟨rfl, rfl⟩

/-- A credential says one thing about each identity that it names, and nothing about others. -/
theorem saidOf_mentions (root id : String) (c : Credential) :
    Node.saidOf id (c.mentions root) = if c.names id then [c.mentionOf root id] else [] := by
  rw [mentions, Node.saidOf_append, Node.saidOf_singleton, names, mentionOf]
  by_cases self : c.issuer = c.subject
  · rw [if_pos self, self]
    by_cases about : c.subject = id <;> simp [Node.saidOf, about]
  · rw [if_neg self, Node.saidOf_singleton]
    by_cases about : c.subject = id
    · have other : c.issuer ≠ id := fun same => self (same.trans about.symm)
      simp [about, other]
    · by_cases issued : c.issuer = id <;> simp [about, issued]

end Credential

theorem isEarliest_cons_none {times : List (Option Timestamp)} {t : Option Timestamp} :
    IsEarliest (none :: times) t ↔ IsEarliest times t := by
  cases t <;> simp [IsEarliest]

namespace Graph

variable {naming : Naming} {root id : String} {cs ds : List Credential}

/-- All that is said about an identity comes from the credentials that name it, in their order. The
root has its role before that. -/
theorem saidOf_statements (naming : Naming) (root id : String) (cs : List Credential) :
    Node.saidOf id (statements naming root cs) =
      (if root = id then [{ role := some naming.rootRole }] else []) ++
        (cs.filter (·.names id)).map (Credential.mentionOf root id) := by
  induction cs using List.reverseRecOn with
  | nil =>
    by_cases itself : root = id <;> simp [statements, Node.saidOf, itself]
  | append_singleton cs c ih =>
    rw [statements_concat, Node.saidOf_append, ih, Credential.saidOf_mentions, List.filter_append,
      List.map_append, List.append_assoc]
    by_cases named : c.names id = true <;> simp [named]

theorem mem_drawn_ids_iff :
    id ∈ (drawn naming root cs).ids ↔ id = root ∨ cs.filter (·.names id) ≠ [] := by
  rw [drawn_ids, List.mem_eraseDups, List.mem_cons, ne_eq, List.filter_eq_nil_iff]
  refine or_congr_right ?_
  simp only [List.mem_flatMap, List.mem_cons, List.not_mem_nil, or_false, Credential.names_iff,
    not_forall, not_not, exists_prop, @eq_comm _ id]

/-- The nodes of a build are the root and whomever decoded credentials name. -/
theorem mem_built_ids_iff {now : Reading} {items : List Item} :
    id ∈ (built naming root now items).ids ↔
      id = root ∨ ∃ c ∈ items.filterMap Item.credential?, c.names id = true := by
  rw [built_ids, mem_drawn_ids_iff, takenFrom, Credential.accepted_filter_names, ne_eq,
    Credential.accepted_eq_nil_iff, List.filter_eq_nil_iff]
  simp only [not_forall, not_not, exists_prop]

/-- What becomes of an identity through credentials, up to the label that it may lack. -/
def person (naming : Naming) (root : String) (cs : List Credential) (id : String) : Node :=
  Node.told id naming.defaultRole (Node.saidOf id (statements naming root cs))

theorem drawn_node? (known : id ∈ (drawn naming root cs).ids) :
    (drawn naming root cs).node? id = some (person naming root cs id) :=
  Node.find?_table (mem_sketch_ids_iff.mp known) naming.defaultRole

theorem node?_fillLabels (g : Graph) (naming : Naming) (id : String) :
    (g.fillLabels naming).node? id = (g.node? id).map fun n =>
      { n with label := (filled n.label).or (some (shortLabel naming.labelLength n.id)) } := by
  rw [node?, fillLabels, List.find?_map]
  rfl

/-- The node of an identity only depends on the credentials that name it. -/
theorem drawn_node?_congr (same : cs.filter (·.names id) = ds.filter (·.names id)) :
    (drawn naming root cs).node? id = (drawn naming root ds).node? id := by
  by_cases known : id ∈ (drawn naming root cs).ids
  · have known' : id ∈ (drawn naming root ds).ids := by
      rw [mem_drawn_ids_iff] at known ⊢
      rwa [← same]
    rw [drawn_node? known, drawn_node? known', person, person, saidOf_statements, saidOf_statements,
      same]
  · have absent : id ∉ (drawn naming root ds).ids := by
      rw [mem_drawn_ids_iff] at known ⊢
      rwa [← same]
    rw [node?_eq_none_iff.mpr known, node?_eq_none_iff.mpr absent]

/-- A node has joined with the earliest of the credentials that name it, and counts them all. -/
theorem person_sums (naming : Naming) (root : String) (cs : List Credential) (id : String) :
    IsEarliest ((cs.filter (·.names id)).map Credential.joinedAt) (person naming root cs id).joinedAt ∧
      (person naming root cs id).credentials = cs.countP (·.names id) := by
  obtain ⟨earliest, sum⟩ := (statements_timed naming root cs).told_sums id naming.defaultRole
  rw [saidOf_statements, List.map_append, List.map_map] at earliest sum
  have times : Mention.joinedAt ∘ Credential.mentionOf root id = Credential.joinedAt :=
    funext fun c => (c.mentionOf_sums root id).1
  have counts : Mention.credentials ∘ Credential.mentionOf root id = fun _ => 1 :=
    funext fun c => (c.mentionOf_sums root id).2
  rw [times] at earliest
  rw [counts, List.map_const', List.sum_append] at sum
  rw [person, saidOf_statements]
  by_cases itself : root = id
  · simp only [if_pos itself, List.map_cons, List.map_nil, List.singleton_append,
      isEarliest_cons_none] at earliest sum
    rw [if_pos itself]
    exact ⟨earliest, by simpa [List.countP_eq_length_filter] using sum⟩
  · simp only [if_neg itself, List.map_nil, List.nil_append] at earliest sum
    rw [if_neg itself]
    exact ⟨earliest, by simpa [List.countP_eq_length_filter] using sum⟩

theorem built_node?_eq (naming : Naming) (root : String) (now : Reading) (items : List Item)
    (id : String) :
    (built naming root now items).node? id =
      ((drawn naming root (takenFrom items)).node? id).map fun n =>
        { n with label := (filled n.label).or (some (shortLabel naming.labelLength n.id)) } :=
  node?_fillLabels (drawn naming root (takenFrom items)).mark naming id

/-- When a built node has joined, and how many credentials it counts. -/
theorem built_node_sums {now : Reading} {items : List Item} {n : Node}
    (found : (built naming root now items).node? id = some n) :
    IsEarliest (((takenFrom items).filter (·.names id)).map Credential.joinedAt) n.joinedAt ∧
      n.credentials = (takenFrom items).countP (·.names id) := by
  rw [built_node?_eq] at found
  obtain ⟨m, drawn, rfl⟩ := Option.map_eq_some_iff.mp found
  have known := mem_ids_of_node? drawn
  rw [drawn_node? known] at drawn
  cases drawn
  exact person_sums naming root (takenFrom items) id

end Graph

end Vouch
