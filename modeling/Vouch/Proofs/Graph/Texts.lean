import Vouch.Proofs.Credential.LastWord
import Vouch.Proofs.Graph.Named
import Vouch.Proofs.Graph.Reordered

namespace Vouch

theorem textAttribute?_filled (names : List String) (fields : List (String × Datum)) :
    filled (textAttribute? names fields) = textAttribute? names fields := by
  cases found : textAttribute? names fields with
  | none => rfl
  | some text =>
    obtain ⟨_, name, _, _, read, _⟩ := List.findSome?_eq_some_iff.mp found
    have something : text ≠ "" := by
      split at read
      · split at read
        · cases read
        · rename_i nonempty
          rw [← Option.some.inj read]
          exact nonempty
      · cases read
    simp [filled, something]

/-- Every text that a credential has has something in it. -/
structure Credential.Spoken (c : Credential) : Prop where
  role : filled c.role = c.role
  displayName : filled c.displayName = c.displayName
  status : filled c.status? = c.status?

theorem Record.credential_spoken (r : Record) (found : Resolved) (issuedAt : Option Reading) :
    (r.credential found issuedAt).Spoken where
  role := textAttribute?_filled ["role"] found.attributes
  displayName := textAttribute?_filled ["displayName", "name"] found.attributes
  status := by
    simp only [Credential.status?, credential, content]
    cases found.kind with
    | membership => exact textAttribute?_filled ["verificationStatus"] found.attributes
    | steward => rfl
    | invitation => rfl
    | selfClaim => rfl
    | other => rfl

/-- Decoding leaves out texts with nothing in them. -/
theorem Item.credential?_spoken {item : Item} {c : Credential} (decoded : item.credential? = some c) :
    c.Spoken := by
  unfold credential? decode Record.decode at decoded
  split at decoded
  · cases decoded
  split at decoded
  · cases decoded
  split at decoded
  · cases decoded
  · cases decoded
    exact Record.credential_spoken _ _ _

namespace Node

theorem filled_or {a b : Option String} (first : filled a = a) (second : filled b = b) :
    filled (a.or b) = a.or b := by
  cases a with
  | none => exact second
  | some text => exact first

theorem told_status_filled {id defaultRole : String} {ms : List Mention}
    (spoken : ∀ m ∈ ms, filled m.status = m.status) :
    filled (told id defaultRole ms).status = (told id defaultRole ms).status := by
  induction ms using List.reverseRecOn with
  | nil => rfl
  | append_singleton ms m ih =>
    have last := spoken m (by simp)
    by_cases start : ms = []
    · subst start
      exact last
    · rw [told_concat start, absorb_status, last]
      exact filled_or last (ih fun n member => spoken n (List.mem_append_left _ member))

end Node

namespace Graph

/-- What is said in a text about an identity comes from credentials about it, after what is said
about the root at the beginning. -/
theorem filterMap_saidOf_statements (naming : Naming) (root id : String)
    (word : Mention → Option String) (silent : ∀ c : Credential, word c.issuerMention = none)
    (cs : List Credential) :
    (Node.saidOf id (statements naming root cs)).filterMap word =
      (if root = id then (word { role := some naming.rootRole }).toList else []) ++
        (cs.filter (·.subject = id)).filterMap fun c => word (c.subjectMention root) := by
  rw [saidOf_statements, List.filterMap_append, List.filterMap_map, List.filterMap_filter,
    List.filterMap_filter]
  congr 1
  · by_cases itself : root = id
    · cases opening : word { role := some naming.rootRole } <;> simp [itself, opening]
    · simp [itself]
  · -- An issuer is named as well, but without a text.
    refine List.filterMap_congr fun c _ => ?_
    by_cases about : c.subject = id
    · simp [Credential.names, Credential.mentionOf, about]
    · simp [Credential.mentionOf, about, silent c]

end Graph

/-- The texts of a node, and whose they are. -/
def Node.texts (n : Node) : String × Option String × String × Option String :=
  (n.id, n.label, n.role, n.status)

/-- The texts that accepted credentials give to an identity. The role of the root is fixed. -/
def finalTexts (naming : Naming) (root : String) (cs : List Credential) (id : String) :
    String × Option String × String × Option String :=
  (id, some ((Credential.lastWord Credential.displayName id cs).getD
      (shortLabel naming.labelLength id)),
    if root = id then (filled (some naming.rootRole)).getD naming.defaultRole
    else (Credential.lastWord Credential.role id cs).getD naming.defaultRole,
    Credential.lastWord Credential.status? id cs)

namespace Graph

section

variable {naming : Naming} {root : String} {cs : List Credential}

theorem told_label_eq (spoken : ∀ c ∈ cs, c.Spoken) (id : String) :
    filled (Node.told id naming.defaultRole
        (Node.saidOf id (statements naming root cs))).label =
      Credential.lastWord Credential.displayName id cs := by
  rw [Node.told_label, filterMap_saidOf_statements naming root id (fun m => filled m.label)
    (fun _ => rfl)]
  have opening : (if root = id then (filled none).toList else []) = [] := by
    split <;> rfl
  rw [opening, List.nil_append, Credential.lastWord]
  congr 1
  exact List.filterMap_congr fun c member => (spoken c (List.mem_of_mem_filter member)).displayName

theorem told_status_eq (spoken : ∀ c ∈ cs, c.Spoken) (id : String) :
    (Node.told id naming.defaultRole (Node.saidOf id (statements naming root cs))).status =
      Credential.lastWord Credential.status? id cs := by
  have each : ∀ m ∈ Node.saidOf id (statements naming root cs), filled m.status = m.status := by
    intro m member
    obtain ⟨call, inside, rfl⟩ := List.mem_map.mp member
    rcases mem_statements (List.mem_of_mem_filter inside) with opening | ⟨c, taken, said⟩
    · rw [opening]
      rfl
    · rcases said with issuer | subject
      · rw [issuer]
        rfl
      · rw [subject]
        exact (spoken c taken).status
  rw [← Node.told_status_filled each, Node.told_status,
    filterMap_saidOf_statements naming root id (fun m => filled m.status) (fun _ => rfl)]
  have opening : (if root = id then (filled none).toList else []) = [] := by
    split <;> rfl
  rw [opening, List.nil_append, Credential.lastWord]
  congr 1
  exact List.filterMap_congr fun c member => (spoken c (List.mem_of_mem_filter member)).status

theorem told_role_eq (spoken : ∀ c ∈ cs, c.Spoken) (id : String) :
    (Node.told id naming.defaultRole (Node.saidOf id (statements naming root cs))).role =
      if root = id then (filled (some naming.rootRole)).getD naming.defaultRole
      else (Credential.lastWord Credential.role id cs).getD naming.defaultRole := by
  rw [Node.told_role, filterMap_saidOf_statements naming root id (fun m => filled m.role)
    (fun _ => rfl)]
  by_cases itself : root = id
  · have silent : (cs.filter (·.subject = id)).filterMap
        (fun c => filled (c.subjectMention root).role) = [] := by
      rw [List.filterMap_eq_nil_iff]
      intro c member
      have about : c.subject = root := by simpa [itself] using (List.mem_filter.mp member).2
      simp [Credential.subjectMention, about, filled]
    rw [silent, if_pos itself, if_pos itself, List.append_nil]
    cases filled (some naming.rootRole) <;> rfl
  · rw [if_neg itself, if_neg itself, List.nil_append, Credential.lastWord]
    congr 2
    refine List.filterMap_congr fun c member => ?_
    obtain ⟨inside, about⟩ := List.mem_filter.mp member
    have other : c.subject ≠ root := by
      rw [of_decide_eq_true about]
      exact Ne.symm itself
    rw [Credential.subjectMention, if_neg other]
    exact (spoken c inside).role

theorem drawn_texts (spoken : ∀ c ∈ cs, c.Spoken) :
    ((drawn naming root cs).mark.fillLabels naming).nodes.map Node.texts =
      (drawn naming root cs).ids.map (finalTexts naming root cs) := by
  simp only [fillLabels, mark, ids, drawn, sketch, Node.table, List.map_map]
  refine List.map_congr_left fun id _ => ?_
  have label : ∀ text : Option String,
      text.or (some (shortLabel naming.labelLength id)) =
        some (text.getD (shortLabel naming.labelLength id)) := by
    intro text
    cases text <;> rfl
  simp only [Function.comp_apply, Node.texts, finalTexts, Node.told_id, told_label_eq spoken,
    told_role_eq spoken, told_status_eq spoken, label]

theorem lastWord_eq_none_of_not_mem {id : String} (absent : id ∉ (drawn naming root cs).ids)
    (word : Credential → Option String) : Credential.lastWord word id cs = none := by
  have nobody : cs.filter (·.subject = id) = [] := by
    rw [List.filter_eq_nil_iff]
    intro c taken about
    refine absent (mem_sketch_ids_iff.mpr ?_)
    have said : c.subject ∈ (c.mentions root).map Prod.fst := by
      simp [Credential.mentions]
    rw [statements, List.map_cons, List.map_flatMap, ← of_decide_eq_true about]
    exact List.mem_cons_of_mem _ (List.mem_flatMap.mpr ⟨c, taken, said⟩)
  rw [Credential.lastWord, nobody]
  rfl

end

/-- Two graphs with the same texts: for all nodes the label, the role and the status, and for all
edges the kinds of their relations. -/
structure SameTexts (g g' : Graph) : Prop where
  nodes : (g.nodes.map Node.texts).Perm (g'.nodes.map Node.texts)
  edges : (g.edges.map fun e => (e.key, e.kind)).Perm (g'.edges.map fun e => (e.key, e.kind))

end Graph

/-- Nothing of what some credentials say in texts depends on the order in which they are stored:
those that may be accepted for the same key are of the same kind, and all words that can be the last
about the same subject come to the same. -/
structure Settled (naming : Naming) (root : String) (cs : List Credential) : Prop where
  kinds : ∀ c d, Credential.Leading cs c → Credential.Leading cs d → c.key = d.key →
    c.kind = d.kind
  labels : ∀ id a b, Credential.CanEnd cs Credential.displayName id a →
    Credential.CanEnd cs Credential.displayName id b →
    a.getD (shortLabel naming.labelLength id) = b.getD (shortLabel naming.labelLength id)
  roles : ∀ id a b, id ≠ root → Credential.CanEnd cs Credential.role id a →
    Credential.CanEnd cs Credential.role id b →
    a.getD naming.defaultRole = b.getD naming.defaultRole
  statuses : ∀ id a b, Credential.CanEnd cs Credential.status? id a →
    Credential.CanEnd cs Credential.status? id b → a = b

/-- Nothing has to be settled between credentials that differ in time or identifier. -/
theorem settled_of_rank_ne (naming : Naming) (root : String) {cs : List Credential}
    (apart : ∀ c ∈ cs, ∀ d ∈ cs, c.rank = d.rank → c = d) : Settled naming root cs where
  kinds := fun c d first second same => by
    rw [apart c first.1 d second.1 (first.rank_eq second same)]
  labels := fun _ _ _ first second => by rw [first.unique second apart]
  roles := fun _ _ _ _ first second => by rw [first.unique second apart]
  statuses := fun _ _ _ first second => first.unique second apart

namespace Graph

variable {naming : Naming} {root : String} {now : Reading}

theorem takenFrom_spoken (items : List Item) : ∀ c ∈ takenFrom items, c.Spoken := by
  intro c taken
  obtain ⟨item, _, decoded⟩ := List.mem_filterMap.mp (Credential.mem_of_mem_accepted taken)
  exact Item.credential?_spoken decoded

theorem built_texts (naming : Naming) (root : String) (now : Reading) (items : List Item) :
    (built naming root now items).nodes.map Node.texts =
      (built naming root now items).ids.map (finalTexts naming root (takenFrom items)) := by
  rw [built_ids]
  exact drawn_texts (takenFrom_spoken items)

theorem built_kinds (naming : Naming) (root : String) (now : Reading) (items : List Item) :
    ((built naming root now items).edges.map fun e => (e.key, e.kind)) =
      (takenFrom items).map fun c => (c.key, c.kind) := by
  rw [built_edges]
  simp only [mark, drawn, sketch, List.map_map]
  rfl

/-- Two graphs of the same items in different orders have the same texts if no identity is given
different ones, and the credentials accepted for a key are of the same kind. -/
theorem built_sameTexts_iff {items items' : List Item} (perm : items.Perm items') :
    (built naming root now items).SameTexts (built naming root now items') ↔
      (∀ id, finalTexts naming root (takenFrom items) id =
        finalTexts naming root (takenFrom items') id) ∧
      ∀ c ∈ takenFrom items, ∀ d ∈ takenFrom items', c.key = d.key → c.kind = d.kind := by
  have dated := Credential.accepted_dated_perm (perm.filterMap Item.credential?)
  have ids : (built naming root now items).ids.Perm (built naming root now items').ids := by
    have nodes := (drawn_nodes_perm naming root dated).map Prod.fst
    rw [List.map_map, List.map_map] at nodes
    rw [built_ids, built_ids]
    exact nodes
  constructor
  · rintro ⟨nodes, edges⟩
    rw [built_texts, built_texts] at nodes
    rw [built_kinds, built_kinds] at edges
    refine ⟨fun id => ?_, fun c taken d other same => ?_⟩
    · by_cases mentioned : id ∈ (built naming root now items).ids
      · obtain ⟨id', _, texts⟩ :=
          List.mem_map.mp (nodes.mem_iff.mp (List.mem_map_of_mem mentioned))
        have itself : id' = id := congrArg Prod.fst texts
        rw [← texts, itself]
      · have absent := ids.mem_iff.not.mp mentioned
        rw [built_ids] at mentioned absent
        simp only [finalTexts, lastWord_eq_none_of_not_mem mentioned,
          lastWord_eq_none_of_not_mem absent]
    · obtain ⟨e, first, entry⟩ := List.mem_map.mp (edges.mem_iff.mp (List.mem_map_of_mem taken))
      obtain ⟨keys, kinds⟩ := Prod.mk.inj entry
      rw [← kinds, Credential.accepted_eq_of_key first other (keys.trans same)]
  · rintro ⟨texts, kinds⟩
    refine ⟨?_, ?_⟩
    · rw [built_texts, built_texts, funext texts]
      exact ids.map _
    · rw [built_kinds, built_kinds]
      exact Credential.accepted_view_perm (perm.filterMap Item.credential?) kinds

/-- Texts that are the same in whatever order items are stored are settled, since each text that can
have the last word has it in some order. -/
theorem settled_of_forall_perm {items : List Item}
    (texts : ∀ items', items.Perm items' → ∀ id,
      finalTexts naming root (takenFrom items) id = finalTexts naming root (takenFrom items') id)
    (kinds : ∀ items', items.Perm items' → ∀ c ∈ takenFrom items, ∀ d ∈ takenFrom items',
      c.key = d.key → c.kind = d.kind) :
    Settled naming root (items.filterMap Item.credential?) where
  kinds := by
    intro c d first second same
    obtain ⟨e, taken, _, own⟩ := Credential.exists_accepted (.refl _) first
    obtain ⟨_, perm, chosen⟩ := Credential.exists_perm_accepted first
    obtain ⟨_, perm', chosen'⟩ := Credential.exists_perm_accepted second
    exact (kinds _ perm e taken c chosen own).symm.trans
      (kinds _ perm' e taken d chosen' (own.trans same))
  labels := by
    intro id a b first second
    obtain ⟨_, perm, rfl⟩ := Credential.exists_perm_lastWord first
    obtain ⟨_, perm', rfl⟩ := Credential.exists_perm_lastWord second
    have same := (texts _ perm id).symm.trans (texts _ perm' id)
    exact Option.some.inj (congrArg (·.2.1) same)
  roles := by
    intro id a b other first second
    obtain ⟨_, perm, rfl⟩ := Credential.exists_perm_lastWord first
    obtain ⟨_, perm', rfl⟩ := Credential.exists_perm_lastWord second
    have same := congrArg (·.2.2.1) ((texts _ perm id).symm.trans (texts _ perm' id))
    simp only [finalTexts, if_neg (Ne.symm other)] at same
    exact same
  statuses := by
    intro id a b first second
    obtain ⟨_, perm, rfl⟩ := Credential.exists_perm_lastWord first
    obtain ⟨_, perm', rfl⟩ := Credential.exists_perm_lastWord second
    exact congrArg (·.2.2.2) ((texts _ perm id).symm.trans (texts _ perm' id))

/-- Where texts are settled they are the same in whatever order items are stored, since what has the
last word in some order can have it. -/
theorem finalTexts_eq_of_settled {items items' : List Item} (perm : items.Perm items')
    (settled : Settled naming root (items.filterMap Item.credential?)) (id : String) :
    finalTexts naming root (takenFrom items) id =
      finalTexts naming root (takenFrom items') id := by
  have first := fun word =>
    Credential.canEnd_lastWord (.refl (items.filterMap Item.credential?)) word id
  have second := fun word =>
    Credential.canEnd_lastWord (perm.filterMap Item.credential?) word id
  rw [finalTexts, finalTexts, takenFrom, takenFrom, settled.labels id _ _ (first _) (second _),
    settled.statuses id _ _ (first _) (second _)]
  by_cases itself : root = id
  · rw [if_pos itself, if_pos itself]
  · rw [if_neg itself, if_neg itself,
      settled.roles id _ _ (Ne.symm itself) (first _) (second _)]

/-- The condition under which the order of a store does not matter to texts: a graph has the same
labels, roles, statuses and kinds of relations in whatever order its items are stored, exactly if
its credentials are settled. -/
theorem build_sameTexts_iff {items : List Item} {g : Graph}
    (run : build naming root now (.memory items) = .ok g) :
    (∀ items', items.Perm items' →
      ∃ g', build naming root now (.memory items') = .ok g' ∧ g.SameTexts g') ↔
      Settled naming root (items.filterMap Item.credential?) := by
  obtain ⟨named, others, listed, sound, rfl⟩ := build_cases run
  obtain rfl : items = others := Except.ok.inj listed
  have rebuilt : ∀ items', items.Perm items' →
      build naming root now (.memory items') = .ok (built naming root now items') :=
    fun items' perm => build_eq_built named rfl fun item member =>
      sound item (perm.mem_iff.mpr member)
  constructor
  · intro same
    have texts : ∀ items', items.Perm items' →
        (built naming root now items).SameTexts (built naming root now items') := by
      intro items' perm
      obtain ⟨g', run', texts⟩ := same items' perm
      rw [rebuilt items' perm] at run'
      cases run'
      exact texts
    exact settled_of_forall_perm
      (fun items' perm => ((built_sameTexts_iff perm).mp (texts items' perm)).1)
      (fun items' perm => ((built_sameTexts_iff perm).mp (texts items' perm)).2)
  · intro settled items' perm
    have same := perm.filterMap Item.credential?
    refine ⟨_, rebuilt items' perm, (built_sameTexts_iff perm).mpr
      ⟨finalTexts_eq_of_settled perm settled, fun c taken d other keys => ?_⟩⟩
    exact settled.kinds c d (Credential.leading_of_mem_accepted taken)
      ((Credential.leading_of_mem_accepted other).perm same.symm) keys

theorem not_settled_welcome :
    ¬ Settled {} "R" ([welcome "guest", welcome "host"].filterMap Item.credential?) := by
  intro settled
  have run : build {} "R" .dawn (.memory [welcome "guest", welcome "host"]) =
      .ok (welcomed "guest") := by cbv
  have rerun : build {} "R" .dawn (.memory [welcome "host", welcome "guest"]) =
      .ok (welcomed "host") := by cbv
  obtain ⟨g', run', same⟩ := (build_sameTexts_iff run).mpr settled _ (.swap _ _ [])
  obtain rfl : welcomed "host" = g' := Except.ok.inj (rerun.symm.trans run')
  have nodes := same.nodes
  revert nodes
  decide +kernel

/-- Two memberships with the same identifier, neither of them dated: the first one of the store
gives the role. -/
theorem build_welcome_not_sameTexts :
    [welcome "guest", welcome "host"].Perm [welcome "host", welcome "guest"] ∧
      ∃ g g', build {} "R" .dawn (.memory [welcome "guest", welcome "host"]) = .ok g ∧
        build {} "R" .dawn (.memory [welcome "host", welcome "guest"]) = .ok g' ∧
        ¬ g.SameTexts g' := by
  refine ⟨.swap _ _ [], welcomed "guest", welcomed "host", by cbv, by cbv, fun same => ?_⟩
  have nodes := same.nodes
  revert nodes
  decide +kernel

end Graph

end Vouch
