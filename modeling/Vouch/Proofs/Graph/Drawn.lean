import Vouch.Proofs.Credential.Accepted
import Vouch.Proofs.Graph.Told

namespace Vouch

namespace Credential

/-- What a credential says about its parties. A claim about oneself says it once. -/
def mentions (root : String) (c : Credential) : List (String × Mention) :=
  (if c.issuer = c.subject then [] else [(c.issuer, c.issuerMention)]) ++
    [(c.subject, c.subjectMention root)]

theorem edge_key (c : Credential) : c.edge.key = c.key := rfl

end Credential

/-- Mentions at times of universal time, which can always be compared. -/
def Timed (calls : List (String × Mention)) : Prop :=
  ∀ call ∈ calls, ∀ t, call.2.joinedAt = some t → ∃ r, t = .ofUtc r

theorem Timed.saidOf {calls : List (String × Mention)} (timed : Timed calls) {id : String}
    {m : Mention} (member : m ∈ Node.saidOf id calls) {t : Timestamp} (joined : m.joinedAt = some t) :
    ∃ r, t = .ofUtc r := by
  obtain ⟨call, inside, rfl⟩ := List.mem_map.mp member
  exact timed call (List.mem_of_mem_filter inside) t joined

theorem Timed.told_sums {calls : List (String × Mention)} (timed : Timed calls)
    (id defaultRole : String) :
    IsEarliest ((Node.saidOf id calls).map Mention.joinedAt)
        (Node.told id defaultRole (Node.saidOf id calls)).joinedAt ∧
      (Node.told id defaultRole (Node.saidOf id calls)).credentials =
        ((Node.saidOf id calls).map Mention.credentials).sum := by
  refine Node.told_sums true fun m member t joined => ?_
  obtain ⟨r, rfl⟩ := timed.saidOf member joined
  rfl

namespace Graph

/-- The graph that a series of mentions and a list of edges make. -/
def sketch (naming : Naming) (root : String) (calls : List (String × Mention))
    (edges : List Edge) : Graph where
  root
  defaultRole := naming.defaultRole
  nodes := Node.table naming.defaultRole calls
  edges

theorem mem_sketch_ids_iff {naming : Naming} {root id : String} {calls : List (String × Mention)}
    {edges : List Edge} : id ∈ (sketch naming root calls edges).ids ↔ id ∈ calls.map Prod.fst := by
  rw [ids, sketch, Node.table_ids, List.mem_eraseDups]

/-- At times that can be compared no mention fails. -/
theorem addNode_sketch_ok {naming : Naming} {root id : String} {calls : List (String × Mention)}
    {edges : List Edge} {m : Mention} (timed : Timed (calls ++ [(id, m)])) :
    ∃ n, ((sketch naming root calls edges).addNode id m).2 = .ok n := by
  by_cases mentioned : id ∈ calls.map Prod.fst
  · have found : (sketch naming root calls edges).node? id =
        some (Node.told id naming.defaultRole (Node.saidOf id calls)) :=
      Node.find?_table mentioned naming.defaultRole
    have before : Timed calls := fun call inside => timed call (List.mem_append_left _ inside)
    have earliest := (before.told_sums id naming.defaultRole).1
    have alike : ∀ t, m.joinedAt = some t ∨
        (Node.told id naming.defaultRole (Node.saidOf id calls)).joinedAt = some t →
          t.offset.isSome = true := by
      rintro t (new | old)
      · obtain ⟨r, rfl⟩ := timed (id, m) (by simp) t new
        rfl
      · rw [old] at earliest
        obtain ⟨s, member, time⟩ := List.mem_map.mp earliest.1
        obtain ⟨r, rfl⟩ := before.saidOf member time
        rfl
    simp only [addNode, found, Node.absorb_ok alike]
    exact ⟨_, rfl⟩
  · have absent : (sketch naming root calls edges).node? id = none :=
      node?_eq_none_iff.mpr (mem_sketch_ids_iff.not.mpr mentioned)
    simp only [addNode, absent]
    exact ⟨_, rfl⟩

theorem mention_sketch (naming : Naming) (root : String) (edges : List Edge) {id : String}
    {calls : List (String × Mention)} {m : Mention} (timed : Timed (calls ++ [(id, m)])) :
    (sketch naming root calls edges).mention id m =
      .ok (sketch naming root (calls ++ [(id, m)]) edges) := by
  have grown : ((sketch naming root calls edges).addNode id m).1 =
      sketch naming root (calls ++ [(id, m)]) edges := addNode_table rfl id m
  obtain ⟨n, ok⟩ := @addNode_sketch_ok naming root id calls edges m timed
  unfold mention
  split
  · rename_i g' _ run
    rw [run] at grown
    rw [← grown]
  · rename_i _ fault run
    rw [run] at ok
    cases ok

/-- All that a build says about identities: first the role of the root. -/
def statements (naming : Naming) (root : String) (cs : List Credential) :
    List (String × Mention) :=
  (root, { role := some naming.rootRole }) :: cs.flatMap (Credential.mentions root)

theorem statements_concat (naming : Naming) (root : String) (cs : List Credential)
    (c : Credential) :
    statements naming root (cs ++ [c]) = statements naming root cs ++ c.mentions root := by
  simp [statements]

/-- All that a build can say: the role of the root, or what a credential says about a party. -/
theorem mem_statements {naming : Naming} {root : String} {cs : List Credential}
    {call : String × Mention} (member : call ∈ statements naming root cs) :
    call.2 = { role := some naming.rootRole } ∨
      ∃ c ∈ cs, call.2 = c.issuerMention ∨ call.2 = c.subjectMention root := by
  rcases List.mem_cons.mp member with rfl | said
  · exact Or.inl rfl
  · obtain ⟨c, taken, inside⟩ := List.mem_flatMap.mp said
    refine Or.inr ⟨c, taken, ?_⟩
    rcases List.mem_append.mp inside with issuer | subject
    · split at issuer
      · cases issuer
      · rw [List.mem_singleton.mp issuer]
        exact Or.inl rfl
    · rw [List.mem_singleton.mp subject]
      exact Or.inr rfl

theorem statements_timed (naming : Naming) (root : String) (cs : List Credential) :
    Timed (statements naming root cs) := by
  intro call member t joined
  rcases mem_statements member with opening | ⟨c, _, said⟩
  · rw [opening] at joined
    cases joined
  · have time : call.2.joinedAt = c.joinedAt := by
      rcases said with issuer | subject
      · rw [issuer]
        rfl
      · rw [subject]
        rfl
    rw [time] at joined
    obtain ⟨r, _, rfl⟩ := Option.map_eq_some_iff.mp joined
    exact ⟨r, rfl⟩

/-- The graph of credentials that are taken in one and all, each adding an edge. -/
def drawn (naming : Naming) (root : String) (cs : List Credential) : Graph :=
  sketch naming root (statements naming root cs) (cs.map Credential.edge)

theorem seed_eq_drawn (naming : Naming) (root : String) :
    seed naming root = drawn naming root [] := by
  have bare : ({ root, defaultRole := naming.defaultRole } : Graph).nodes =
      Node.table naming.defaultRole [] := rfl
  exact addNode_table bare root { role := some naming.rootRole }

theorem drawn_edge_keys (naming : Naming) (root : String) (cs : List Credential) :
    (drawn naming root cs).edges.map Edge.key = cs.map Credential.key := by
  simp [drawn, sketch, Function.comp_def, Credential.edge_key]

theorem drawn_hasEdge_iff {naming : Naming} {root : String} {cs : List Credential}
    {k : String × String × String} :
    (drawn naming root cs).hasEdge k = true ↔ k ∈ cs.map Credential.key := by
  rw [hasEdge_iff, drawn_edge_keys]

theorem enter_eq_ok {g g₁ g₂ g₃ : Graph} {c : Credential} {added : Bool}
    (fresh : ¬ g.hasEdge c.key = true)
    (issuer : (if c.issuer = c.subject then pure g else g.mention c.issuer c.issuerMention) = .ok g₁)
    (subject : g₁.mention c.subject (c.subjectMention g₁.root) = .ok g₂)
    (linked : g₂.addEdge c.edge = .ok (g₃, added)) : g.enter c = .ok g₃ := by
  by_cases self : c.issuer = c.subject
  · rw [if_pos self] at issuer
    cases issuer
    simp only [enter, if_neg fresh, if_pos self, bind, Except.bind, subject, linked, pure,
      Except.pure]
  · rw [if_neg self] at issuer
    simp only [enter, if_neg fresh, if_neg self, issuer, bind, Except.bind, subject, linked, pure,
      Except.pure]

/-- A credential with a new key adds its mentions and its edge, and cannot fail to. -/
theorem enter_drawn_fresh {naming : Naming} {root : String} {cs : List Credential} {c : Credential}
    (fresh : c.key ∉ cs.map Credential.key) :
    (drawn naming root cs).enter c = .ok (drawn naming root (cs ++ [c])) := by
  have timed := statements_timed naming root (cs ++ [c])
  have all := statements_concat naming root cs c
  rw [Credential.mentions, ← List.append_assoc] at all
  -- The issuer is only mentioned where it is not the subject as well.
  have issuer : (if c.issuer = c.subject then pure (drawn naming root cs)
      else (drawn naming root cs).mention c.issuer c.issuerMention) =
        .ok (sketch naming root (statements naming root cs ++
          if c.issuer = c.subject then [] else [(c.issuer, c.issuerMention)])
          (cs.map Credential.edge)) := by
    by_cases self : c.issuer = c.subject
    · simp only [if_pos self, List.append_nil]
      rfl
    · rw [all, if_neg self] at timed
      simp only [if_neg self]
      exact mention_sketch naming root _ fun call member =>
        timed call (List.mem_append_left _ member)
  have subject := mention_sketch naming root (cs.map Credential.edge) (all ▸ timed)
  rw [← all] at subject
  -- By then both parties have nodes, so that the edge finds its ends.
  have mentioned : ∀ id ∈ (c.mentions root).map Prod.fst,
      id ∈ (sketch naming root (statements naming root (cs ++ [c])) (cs.map Credential.edge)).ids := by
    intro id party
    rw [mem_sketch_ids_iff, statements_concat, List.map_append]
    exact List.mem_append_right _ party
  have source : c.issuer ∈ (c.mentions root).map Prod.fst := by
    by_cases self : c.issuer = c.subject <;> simp [Credential.mentions, self]
  have target : c.subject ∈ (c.mentions root).map Prod.fst := by simp [Credential.mentions]
  have linked := @addEdge_fresh _ c.edge (mentioned _ source) (mentioned _ target)
    (fun there => fresh ((drawn_edge_keys naming root cs) ▸ there))
  rw [enter_eq_ok (fun there => fresh (drawn_hasEdge_iff.mp there)) issuer subject linked]
  simp [drawn, sketch]

theorem enter_drawn_known {naming : Naming} {root : String} {cs : List Credential} {c : Credential}
    (known : c.key ∈ cs.map Credential.key) :
    (drawn naming root cs).enter c = .ok (drawn naming root cs) := by
  rw [enter, if_pos (drawn_hasEdge_iff.mpr known)]

/-- Taking credentials in one after the other draws those of them that are the first of their keys,
counting the ones that are there already. -/
theorem foldlM_enter_drawn (naming : Naming) (root : String) (cs ds : List Credential) :
    ds.foldlM enter (drawn naming root cs) =
      .ok (drawn naming root (cs ++
        (Credential.firsts ds).filter (·.key ∉ cs.map Credential.key))) := by
  induction ds generalizing cs with
  | nil => simp [Credential.firsts, pure, Except.pure]
  | cons d ds ih =>
    rw [List.foldlM_cons, Credential.firsts]
    by_cases known : d.key ∈ cs.map Credential.key
    · rw [enter_drawn_known known]
      change ds.foldlM enter (drawn naming root cs) = _
      rw [ih, List.filter_cons_of_neg (by simpa using known), List.filter_filter]
      congr 4
      funext e
      by_cases same : e.key = d.key
      · simp [same, known]
      · simp [same]
    · rw [enter_drawn_fresh known]
      change ds.foldlM enter (drawn naming root (cs ++ [d])) = _
      rw [ih, List.filter_cons_of_pos (by simpa using known), List.filter_filter,
        List.append_assoc, List.singleton_append]
      congr 5
      funext e
      simp [Bool.and_comm]

/-- A build takes in the accepted credentials and never fails to do so. -/
theorem grown_eq_drawn (naming : Naming) (root : String) (cs : List Credential) :
    grown naming root cs = .ok (drawn naming root (Credential.accepted cs)) := by
  rw [grown, seed_eq_drawn, foldlM_enter_drawn]
  simp [Credential.accepted]

end Graph

end Vouch
