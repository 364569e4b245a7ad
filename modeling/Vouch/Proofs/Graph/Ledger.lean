import Vouch.Graph.Ledger
import Vouch.Proofs.Graph.Nested
import Vouch.Proofs.Graph.Strands

namespace Vouch

/-- The places of those edges that have a property. -/
def places (p : Edge → Bool) (edges : List Edge) : List Nat :=
  (edges.zipIdx.filter (p ·.1)).map Prod.snd

theorem places_concat (p : Edge → Bool) (edges : List Edge) (e : Edge) :
    places p (edges ++ [e]) = places p edges ++ if p e then [edges.length] else [] := by
  rw [places, List.zipIdx_append, List.filter_append, List.map_append, Nat.zero_add]
  by_cases has : p e = true <;> simp [places, has]

theorem perm_places_concat {p : Edge → Prop} [DecidablePred p] {edges : List Edge} {e : Edge}
    {old new : List Nat} (before : old.Perm (places (p ·) edges))
    (grown : new.Perm (if p e then edges.length :: old else old)) :
    new.Perm (places (p ·) (edges ++ [e])) := by
  rw [places_concat]
  refine grown.trans ?_
  by_cases has : p e
  · simpa [has] using (before.cons edges.length).trans (List.perm_append_singleton _ _).symm
  · simpa [has] using before

theorem places_map {p : Edge → Bool} {f : Edge → Edge} (keeps : ∀ e, p (f e) = p e)
    (edges : List Edge) : places p (edges.map f) = places p edges := by
  rw [places, List.zipIdx_map, List.filter_map, List.map_map, places]
  congr 1
  exact List.filter_congr fun x _ => keeps x.1

/-- What stands at the places of a property are the edges that have it. -/
theorem filterMap_places (p : Edge → Bool) (edges : List Edge) :
    (places p edges).filterMap (edges[·]?) = edges.filter p := by
  have there : ∀ x ∈ edges.zipIdx.filter (p ·.1), edges[x.2]? = some x.1 := fun x member =>
    List.mem_zipIdx_iff_getElem?.mp (List.mem_of_mem_filter member)
  have found : (edges.zipIdx.filter (p ·.1)).filterMap ((edges[·]?) ∘ Prod.snd) =
      (edges.zipIdx.filter (p ·.1)).map Prod.fst := by
    rw [← List.filterMap_eq_map]
    exact List.filterMap_congr there
  rw [places, List.filterMap_map, found]
  have firsts := congrArg (List.filter p) (List.zipIdx_map_fst 0 edges)
  rwa [List.filter_map] at firsts

theorem lookup_eq_find? {nodes : List (String × Node)}
    (stored : ∀ entry ∈ nodes, entry.2.id = entry.1) (id : String) :
    nodes.lookup id = (nodes.map Prod.snd).find? (·.id = id) := by
  induction nodes with
  | nil => rfl
  | cons entry nodes ih =>
    have here := stored entry List.mem_cons_self
    have rest := ih fun other member => stored other (List.mem_cons_of_mem _ member)
    rw [List.lookup_cons, List.map_cons, List.find?_cons, rest, here]
    by_cases same : entry.1 = id
    · simp [same]
    · have other : (id == entry.1) = false := by simpa using Ne.symm same
      simp [same, other]

namespace Ledger

variable {M : Type} {net : Multigraph M} {l : Ledger M}

/-- Both views of a ledger say the same. -/
structure Consistent (net : Multigraph M) (l : Ledger M) : Prop where
  stored : ∀ entry ∈ l.nodes, entry.2.id = entry.1
  sound : l.view.Sound
  hasNode_iff : ∀ id, net.hasNode l.topology id = true ↔ id ∈ l.view.ids
  hasEdge_iff : ∀ key, net.hasEdge l.topology key = true ↔ key ∈ l.edges.map Edge.key
  outgoing : ∀ id, (net.outgoing l.topology id).Perm (places (·.source = id) l.edges)
  incoming : ∀ id, (net.incoming l.topology id).Perm (places (·.target = id) l.edges)

theorem keys_eq (stored : ∀ entry ∈ l.nodes, entry.2.id = entry.1) :
    l.nodes.map Prod.fst = l.view.ids := by
  rw [view, Graph.ids, List.map_map]
  exact List.map_congr_left fun entry member => (stored entry member).symm

namespace Consistent

theorem node?_eq (consistent : l.Consistent net) (id : String) : l.node? id = l.view.node? id :=
  lookup_eq_find? consistent.stored id

theorem holds_eq (consistent : l.Consistent net) (id : String) : l.holds id = l.view.hasNode id := by
  rw [holds, consistent.node?_eq, Graph.node?, Graph.hasNode, Bool.eq_iff_iff, List.find?_isSome,
    List.any_eq_true]

theorem holds_iff (consistent : l.Consistent net) {id : String} :
    l.holds id = true ↔ id ∈ l.view.ids := by
  rw [consistent.holds_eq, Graph.hasNode_iff]

theorem hasEdge_eq (consistent : l.Consistent net) (key : String × String × String) :
    l.hasEdge net key = l.view.hasEdge key := by
  rw [Bool.eq_iff_iff, Graph.hasEdge_iff]
  exact consistent.hasEdge_iff key

theorem links_eq (lawful : net.Lawful) (consistent : l.Consistent net) (a b : String) :
    net.links l.topology a b = l.view.links a b := by
  rw [Bool.eq_iff_iff, lawful.links_iff, Graph.links]
  simp only [consistent.hasEdge_iff, List.mem_map, List.any_eq_true, Bool.and_eq_true,
    decide_eq_true_eq]
  constructor
  · rintro ⟨label, e, member, key⟩
    simp only [Edge.key, Prod.mk.injEq] at key
    exact ⟨e, member, key.1, key.2.1⟩
  · rintro ⟨e, member, rfl, rfl⟩
    exact ⟨e.credential, e, member, rfl⟩

theorem isReciprocal_eq (lawful : net.Lawful) (consistent : l.Consistent net) (a b : String) :
    l.isReciprocal net a b = l.view.isReciprocal a b := by
  rw [isReciprocal, consistent.links_eq lawful, consistent.links_eq lawful, Graph.isReciprocal]

end Consistent

theorem blank_consistent (lawful : net.Lawful) (root : String) (builtAt : Option Timestamp)
    (defaultRole : String) : (blank net root builtAt defaultRole).Consistent net where
  stored := by simp [blank]
  sound := .empty root builtAt defaultRole
  hasNode_iff id := by simp [blank, view, Graph.ids, lawful.hasNode_empty]
  hasEdge_iff key := by simp [blank, lawful.hasEdge_empty]
  outgoing id := by simp [blank, lawful.outgoing_empty, places]
  incoming id := by simp [blank, lawful.incoming_empty, places]

/-- Consistency is about the identifiers of nodes and about edges, and about nothing else. -/
theorem Consistent.congr {l' : Ledger M} (consistent : l.Consistent net)
    (stored : ∀ entry ∈ l'.nodes, entry.2.id = entry.1) (ids : l'.view.ids = l.view.ids)
    (edges : l'.edges = l.edges) (topology : l'.topology = l.topology) : l'.Consistent net where
  stored := stored
  sound := by
    refine ⟨?_, ?_, ?_⟩
    · rw [ids]
      exact consistent.sound.ids_nodup
    · rw [ids, view, edges]
      exact consistent.sound.ends
    · rw [view, edges]
      exact consistent.sound.keys_nodup
  hasNode_iff := by
    rw [ids, topology]
    exact consistent.hasNode_iff
  hasEdge_iff := by
    rw [edges, topology]
    exact consistent.hasEdge_iff
  outgoing := by
    rw [edges, topology]
    exact consistent.outgoing
  incoming := by
    rw [edges, topology]
    exact consistent.incoming

/-- Mentions come to the same in a ledger and in what it shows. -/
theorem Consistent.addNode_view (consistent : l.Consistent net) (id : String) (m : Mention) :
    (l.addNode net id m).1.view = (l.view.addNode id m).1 ∧
      (l.addNode net id m).2 = (l.view.addNode id m).2 := by
  rw [addNode, Graph.addNode, consistent.node?_eq]
  cases found : l.view.node? id with
  | none => simp [view]
  | some n =>
    have same := Graph.node?_id found
    refine ⟨?_, rfl⟩
    simp only [view, Graph.replaceNode, Node.absorb_id, same, List.map_map]
    congr 1
    refine List.map_congr_left fun entry member => ?_
    have key := consistent.stored entry member
    by_cases here : entry.1 = id <;> simp [key, here]

theorem Consistent.addNode (lawful : net.Lawful) (consistent : l.Consistent net) (id : String)
    (m : Mention) : (l.addNode net id m).1.Consistent net := by
  have ids := Graph.addNode_ids l.view id m
  have sound := consistent.sound.addNode id m
  rw [← (consistent.addNode_view id m).1] at ids sound
  cases found : l.node? id with
  | none =>
    have absent : id ∉ l.view.ids :=
      Graph.node?_eq_none_iff.mp ((consistent.node?_eq id).symm.trans found)
    rw [if_neg absent] at ids
    simp only [Ledger.addNode, found] at ids sound ⊢
    refine ⟨?_, sound, fun a => ?_, fun key => ?_, fun a => ?_, fun a => ?_⟩
    · intro entry member
      rcases List.mem_append.mp member with old | new
      · exact consistent.stored entry old
      · rw [List.mem_singleton.mp new]
        rfl
    · rw [ids, List.mem_append, List.mem_singleton, lawful.hasNode_addNode, Bool.or_eq_true,
        decide_eq_true_eq, consistent.hasNode_iff, or_comm]
    · rw [lawful.hasEdge_addNode]
      exact consistent.hasEdge_iff key
    · rw [lawful.outgoing_addNode]
      exact consistent.outgoing a
    · rw [lawful.incoming_addNode]
      exact consistent.incoming a
  | some n =>
    have found' : l.view.node? id = some n := (consistent.node?_eq id).symm.trans found
    rw [if_pos (Graph.mem_ids_of_node? found')] at ids
    simp only [Ledger.addNode, found] at ids ⊢
    refine consistent.congr (fun entry member => ?_) ids rfl rfl
    obtain ⟨old, inside, rfl⟩ := List.mem_map.mp member
    split
    · exact (n.absorb_id m).trans (Graph.node?_id found')
    · exact consistent.stored old inside

theorem addEdge_cases {l' : Ledger M} {e : Edge} {added : Bool}
    (run : l.addEdge net e = .ok (l', added)) :
    l.holds e.source = true ∧ l.holds e.target = true ∧
      (l.hasEdge net e.key = true ∧ l' = l ∨
        l.hasEdge net e.key = false ∧ l' = { l with
          edges := l.edges ++ [e]
          topology := net.addEdge l.topology e.key l.edges.length }) := by
  unfold addEdge at run
  split at run
  · cases run
  split at run
  · cases run
  rename_i source target
  simp only [Bool.not_eq_true', Bool.not_eq_false] at source target
  refine ⟨source, target, ?_⟩
  split at run
  · rename_i there
    cases run
    exact Or.inl ⟨there, rfl⟩
  · rename_i absent
    cases run
    exact Or.inr ⟨by simpa using absent, rfl⟩

theorem Consistent.addEdge_view (consistent : l.Consistent net) (e : Edge) :
    (l.addEdge net e).map (fun r => (r.1.view, r.2)) = l.view.addEdge e := by
  unfold Ledger.addEdge Graph.addEdge
  rw [consistent.holds_eq, consistent.holds_eq, consistent.hasEdge_eq]
  split
  · rfl
  split
  · rfl
  split <;> rfl

theorem Consistent.addEdge (lawful : net.Lawful) (consistent : l.Consistent net) {l' : Ledger M}
    {e : Edge} {added : Bool} (run : l.addEdge net e = .ok (l', added)) : l'.Consistent net := by
  have shown : l.view.addEdge e = .ok (l'.view, added) := by
    rw [← consistent.addEdge_view, run]
    rfl
  have sound := consistent.sound.addEdge shown
  obtain ⟨source, target, ⟨_, rfl⟩ | ⟨fresh, rfl⟩⟩ := addEdge_cases run
  · exact consistent
  rw [consistent.holds_iff] at source target
  -- The multigraph would bring the ends along, but the guards have seen to it that both are there.
  refine ⟨consistent.stored, sound, fun a => ?_, fun key => ?_, fun a => ?_, fun a => ?_⟩
  · rw [lawful.hasNode_addEdge, Bool.or_eq_true, Bool.or_eq_true, decide_eq_true_eq,
      decide_eq_true_eq, consistent.hasNode_iff]
    constructor
    · rintro ((rfl | rfl) | old)
      · exact source
      · exact target
      · exact old
    · exact Or.inr
  · rw [lawful.hasEdge_addEdge, Bool.or_eq_true, decide_eq_true_eq, consistent.hasEdge_iff,
      List.map_append, List.mem_append, List.map_singleton, List.mem_singleton, or_comm]
  · exact perm_places_concat (consistent.outgoing a)
      (lawful.outgoing_addEdge l.topology e.key l.edges.length a fresh)
  · exact perm_places_concat (consistent.incoming a)
      (lawful.incoming_addEdge l.topology e.key l.edges.length a fresh)

theorem Consistent.mark_view (lawful : net.Lawful) (consistent : l.Consistent net) :
    (l.mark net).view = l.view.mark := by
  simp only [Ledger.mark, Graph.mark, view, consistent.isReciprocal_eq lawful]

theorem mark_keys (net : Multigraph M) (l : Ledger M) :
    (l.mark net).edges.map Edge.key = l.edges.map Edge.key := by
  simp only [Ledger.mark, List.map_map]
  rfl

theorem mark_places {p : Edge → Bool}
    (keeps : ∀ e reciprocal, p { e with reciprocal } = p e) (net : Multigraph M) (l : Ledger M) :
    places p (l.mark net).edges = places p l.edges :=
  places_map (fun e => keeps e _) l.edges

/-- Both views share their edges, so that a mark that is set in one of them is there in the
other. -/
theorem Consistent.mark (lawful : net.Lawful) (consistent : l.Consistent net) :
    (l.mark net).Consistent net where
  stored := consistent.stored
  sound := by
    rw [consistent.mark_view lawful]
    exact consistent.sound.mark
  hasNode_iff := consistent.hasNode_iff
  hasEdge_iff key := by
    rw [mark_keys]
    exact consistent.hasEdge_iff key
  outgoing id := by
    rw [mark_places fun _ _ => rfl]
    exact consistent.outgoing id
  incoming id := by
    rw [mark_places fun _ _ => rfl]
    exact consistent.incoming id

/-- Edges with new keys between nodes are all entered. -/
theorem Consistent.addEdges (lawful : net.Lawful) (consistent : l.Consistent net) {es : List Edge}
    (ends : ∀ e ∈ es, e.source ∈ l.view.ids ∧ e.target ∈ l.view.ids)
    (fresh : ((l.edges ++ es).map Edge.key).Nodup) :
    ∃ l', l.addEdges net es = .ok l' ∧ l'.Consistent net ∧
      l'.view = { l.view with edges := l.edges ++ es } := by
  induction es generalizing l with
  | nil => exact ⟨l, rfl, consistent, by rw [List.append_nil]; rfl⟩
  | cons e es ih =>
    obtain ⟨source, target⟩ := ends e List.mem_cons_self
    have absent : e.key ∉ l.edges.map Edge.key := by
      rw [List.map_append, List.map_cons] at fresh
      exact fun old => (List.nodup_append.mp fresh).2.2 _ old _ List.mem_cons_self rfl
    have entered := Graph.addEdge_fresh source target absent
    rw [← consistent.addEdge_view] at entered
    cases run : l.addEdge net e with
    | error fault =>
      rw [run] at entered
      cases entered
    | ok result =>
      obtain ⟨next, added⟩ := result
      rw [run] at entered
      obtain ⟨shown, -⟩ := Prod.mk.inj (Except.ok.inj entered)
      have edges : next.edges = l.edges ++ [e] := congrArg Graph.edges shown
      have ids : next.view.ids = l.view.ids := (congrArg Graph.ids shown).trans rfl
      -- No node has gone, so that the ends of the later edges are still there.
      obtain ⟨l', rest, grown, seen⟩ := ih (consistent.addEdge lawful run)
        (fun f member => ids ▸ ends f (List.mem_cons_of_mem _ member))
        (by rwa [edges, List.append_assoc])
      refine ⟨l', ?_, grown, ?_⟩
      · rw [Ledger.addEdges, List.foldlM_cons, run]
        exact rest
      · rw [seen, edges, shown, List.append_assoc]
        rfl

theorem hasNode_foldl_addNode (lawful : net.Lawful) (ids : List String) (m : M) (id : String) :
    net.hasNode (ids.foldl net.addNode m) id = true ↔ id ∈ ids ∨ net.hasNode m id = true := by
  induction ids generalizing m with
  | nil => simp
  | cons a ids ih =>
    rw [List.foldl_cons, ih, lawful.hasNode_addNode, Bool.or_eq_true, decide_eq_true_eq,
      List.mem_cons]
    tauto

theorem foldl_addNode_eq {α : Type} {read : M → α} (keeps : ∀ m a, read (net.addNode m a) = read m)
    (ids : List String) (m : M) : read (ids.foldl net.addNode m) = read m := by
  induction ids generalizing m with
  | nil => rfl
  | cons a ids ih => rw [List.foldl_cons, ih, keeps]

theorem Consistent.pick_view (consistent : l.Consistent net) (kept : List String) :
    (l.pick net kept).view = { l.view.selection kept false with skipped := [] } := by
  have nodes : (l.nodes.filter (·.1 ∈ kept)).map Prod.snd =
      (l.nodes.map Prod.snd).filter (·.id ∈ kept) := by
    rw [List.filter_map]
    refine congrArg _ (List.filter_congr fun entry member => ?_)
    rw [Function.comp_apply, consistent.stored entry member]
  simp only [pick, view, Graph.selection, nodes, Bool.false_eq_true, if_false]

/-- What one node more leaves alone is the same in a pick as in the empty multigraph. -/
theorem read_pick {α : Type} (read : M → α) (keeps : ∀ m a, read (net.addNode m a) = read m)
    (kept : List String) : read (l.pick net kept).topology = read net.empty :=
  foldl_addNode_eq keeps _ _

theorem Consistent.pick (lawful : net.Lawful) (consistent : l.Consistent net)
    (kept : List String) : (l.pick net kept).Consistent net := by
  have stored : ∀ entry ∈ (l.pick net kept).nodes, entry.2.id = entry.1 := fun entry member =>
    consistent.stored entry (List.mem_of_mem_filter member)
  refine ⟨stored, ?_, fun id => ?_, fun key => ?_, fun id => ?_, fun id => ?_⟩
  · refine consistent.sound.part ?_ (List.nil_sublist _) (fun e member => by cases member)
    rw [consistent.pick_view]
    exact List.filter_sublist
  · rw [← keys_eq stored]
    refine (hasNode_foldl_addNode lawful _ _ id).trans (or_iff_left ?_)
    rw [lawful.hasNode_empty]
    exact Bool.false_ne_true
  · have none := read_pick (l := l) (net.hasEdge · key) (lawful.hasEdge_addNode · · key) kept
    rw [none, lawful.hasEdge_empty]
    simp [Ledger.pick]
  · have none := read_pick (l := l) (net.outgoing · id) (lawful.outgoing_addNode · · id) kept
    rw [none, lawful.outgoing_empty]
    exact .nil
  · have none := read_pick (l := l) (net.incoming · id) (lawful.incoming_addNode · · id) kept
    rw [none, lawful.incoming_empty]
    exact .nil

/-- A restriction never fails. It is consistent, and it shows the restriction of what is shown. -/
theorem Consistent.restrict (lawful : net.Lawful) (consistent : l.Consistent net)
    (ids : List String) (withEdges : Bool) :
    ∃ part, l.restrict net ids withEdges = .ok part ∧ part.Consistent net ∧
      part.view = l.view.restrict ids withEdges := by
  have same : ∀ id ∈ l.view.ids, id ∈ ids.filter l.holds ↔ id ∈ ids := fun id node => by
    rw [List.mem_filter, consistent.holds_iff, and_iff_left node]
  rw [← Graph.restrict_congr consistent.sound withEdges same, Ledger.restrict]
  -- From here on nothing depends on how the kept ones were chosen.
  generalize ids.filter l.holds = kept
  have selected := consistent.sound.selection kept withEdges
  have outline := consistent.pick lawful kept
  have ids : (l.pick net kept).view.ids = (l.view.selection kept withEdges).ids := by
    rw [consistent.pick_view]
    rfl
  have ends := selected.ends
  rw [← ids] at ends
  obtain ⟨full, run, grown, seen⟩ := outline.addEdges lawful ends selected.keys_nodup
  have shown := grown.mark_view lawful
  rw [seen, consistent.pick_view] at shown
  refine ⟨{ full.mark net with skipped := l.skipped }, ?_,
    (grown.mark lawful).congr (grown.mark lawful).stored rfl rfl rfl, ?_⟩
  · change (l.pick net kept).addEdges net (l.view.selection kept withEdges).edges >>= _ = _
    rw [run]
    rfl
  · change { (full.mark net).view with skipped := l.skipped } = _
    rw [shown]
    rfl

theorem Consistent.mem_neighbors_iff (lawful : net.Lawful) (consistent : l.Consistent net)
    {a b : String} : b ∈ net.neighbors l.topology a ↔ l.view.Touch a b := by
  rw [lawful.mem_neighbors_iff, Graph.touch_iff, consistent.links_eq lawful,
    consistent.links_eq lawful]

/-- Walking in the multigraph is going along chains of edges. -/
theorem Consistent.walk_iff (lawful : net.Lawful) (consistent : l.Consistent net) {n : Nat}
    {a b : String} : Walk (net.neighbors l.topology) n a b ↔ l.view.Chain n a b := by
  constructor
  · intro walk
    induction walk with
    | here a => exact .here a
    | step _ near ih => exact ih.step ((consistent.mem_neighbors_iff lawful).mp near)
  · intro chain
    induction chain with
    | here a => exact .here a
    | step _ touch ih => exact ih.step ((consistent.mem_neighbors_iff lawful).mpr touch)

theorem Consistent.mem_within_iff (lawful : net.Lawful) (consistent : l.Consistent net)
    {a b : String} {hops : Nat} (known : l.holds a = true) :
    b ∈ net.within l.topology a hops ↔ b ∈ l.view.within a hops := by
  have node := (consistent.hasNode_iff a).mpr (consistent.holds_iff.mp known)
  rw [lawful.mem_within_iff _ _ _ _ node, Graph.mem_within_iff consistent.sound]
  exact exists_congr fun k => and_congr_right fun _ => consistent.walk_iff lawful

/-- What lies around an identity is consistent and shows what lies around it in what is shown. Only
a negative depth is refused, and it is refused in both. -/
theorem Consistent.neighborhood (lawful : net.Lawful) (consistent : l.Consistent net)
    (naming : Naming) (id : String) (depth : Int) :
    (∃ part, l.neighborhood net naming id depth = .ok part ∧ part.Consistent net ∧
        l.view.neighborhood naming id depth = .ok part.view) ∨
      (l.neighborhood net naming id depth = .error (.negativeDepth ⟨depth⟩) ∧
        l.view.neighborhood naming id depth = .error ⟨depth⟩) := by
  by_cases negative : depth < 0
  · refine Or.inr ⟨?_, if_pos negative⟩
    rw [Ledger.neighborhood, if_pos negative]
    rfl
  refine Or.inl ?_
  rw [Graph.neighborhood, if_neg negative, Graph.around, ← consistent.holds_eq]
  simp only [Ledger.neighborhood, if_neg negative]
  by_cases unknown : (!l.holds id) = true
  · let m : Mention := { label := some (shortLabel naming.labelLength id) }
    have blank := blank_consistent lawful l.root l.builtAt naming.defaultRole
    have named := blank.addNode lawful id m
    simp only [if_pos unknown]
    exact ⟨_, rfl, named.congr named.stored rfl rfl rfl, rfl⟩
  have known : l.holds id = true := by simpa using unknown
  simp only [if_neg unknown]
  -- A radius of nothing drops the edges as well, so it is a restriction of its own.
  by_cases alone : depth = 0
  · obtain ⟨part, run, grown, seen⟩ := consistent.restrict lawful [id] false
    refine ⟨{ part with scope := .neighborhood }, ?_, grown.congr grown.stored rfl rfl rfl, ?_⟩
    · rw [if_pos alone, run]
      rfl
    · rw [if_pos (by omega), ← seen]
      rfl
  · obtain ⟨part, run, grown, seen⟩ :=
      consistent.restrict lawful (net.within l.topology id depth.toNat) true
    refine ⟨{ part with scope := .neighborhood }, ?_, grown.congr grown.stored rfl rfl rfl, ?_⟩
    · rw [if_neg alone, run]
      rfl
    · rw [Graph.restrict_congr consistent.sound true fun b _ =>
        consistent.mem_within_iff lawful known] at seen
      rw [if_neg (by omega), ← seen]
      rfl

theorem Consistent.fillLabels (consistent : l.Consistent net) (naming : Naming) :
    (l.call net (.fillLabels naming)).Consistent net ∧
      (l.call net (.fillLabels naming)).view = l.view.fillLabels naming := by
  have shown : (l.call net (.fillLabels naming)).view = l.view.fillLabels naming := by
    simp only [call, view, Graph.fillLabels, List.map_map]
    rfl
  refine ⟨consistent.congr ?_ ?_ rfl rfl, shown⟩
  · intro entry member
    obtain ⟨old, inside, rfl⟩ := List.mem_map.mp member
    exact consistent.stored old inside
  · rw [shown, Graph.fillLabels_ids]

/-- Whatever is asked of a ledger, it stays consistent and shows the outcome for what it showed. -/
theorem Consistent.call (lawful : net.Lawful) (consistent : l.Consistent net) (c : Call) :
    (l.call net c).Consistent net ∧ (l.call net c).view = l.view.call c := by
  cases c with
  | addNode id m => exact ⟨consistent.addNode lawful id m, (consistent.addNode_view id m).1⟩
  | addEdge e =>
    have shown := consistent.addEdge_view e
    simp only [Ledger.call, Graph.call, ← shown]
    cases run : l.addEdge net e with
    | error fault => exact ⟨consistent, rfl⟩
    | ok result => exact ⟨consistent.addEdge lawful run, rfl⟩
  | mark => exact ⟨consistent.mark lawful, consistent.mark_view lawful⟩
  | restrict ids withEdges =>
    obtain ⟨part, run, grown, seen⟩ := consistent.restrict lawful ids withEdges
    simp only [Ledger.call, Graph.call, run]
    exact ⟨grown, seen⟩
  | neighborhood naming id depth =>
    simp only [Ledger.call, Graph.call]
    obtain ⟨part, run, grown, seen⟩ | ⟨refused, refused'⟩ :=
      consistent.neighborhood lawful naming id depth
    · simp only [run, seen]
      exact ⟨grown, trivial⟩
    · simp only [refused, refused']
      exact ⟨consistent, trivial⟩
  | fillLabels naming => exact consistent.fillLabels naming
  | stamp builtAt skipped => exact ⟨consistent.congr consistent.stored rfl rfl rfl, rfl⟩

theorem Consistent.calls (lawful : net.Lawful) (consistent : l.Consistent net)
    (calls : List Call) :
    (calls.foldl (Ledger.call net) l).Consistent net ∧
      (calls.foldl (Ledger.call net) l).view = calls.foldl Graph.call l.view := by
  induction calls generalizing l with
  | nil => exact ⟨consistent, rfl⟩
  | cons c calls ih =>
    obtain ⟨next, shown⟩ := consistent.call lawful c
    rw [List.foldl_cons, List.foldl_cons, ← shown]
    exact ih next

end Ledger

end Vouch
