import Vouch.Proofs.Graph.Named
import Vouch.Proofs.Score.Standing

namespace Vouch

theorem IsEarliest.exists_le {times : List (Option Timestamp)} {t : Option Timestamp}
    (least : IsEarliest times t) {late : Timestamp} (member : some late ∈ times) :
    ∃ early, t = some early ∧ early.instant ≤ late.instant := by
  cases t with
  | none => exact absurd member (least late)
  | some early => exact ⟨early, rfl, least.2 late member⟩

/-- One node tells no less about an identity than another one: it counts no fewer credentials, and
whoever had joined has not joined later. -/
structure Node.AtLeast (m n : Node) : Prop where
  id : m.id = n.id
  joinedAt : ∀ late, n.joinedAt = some late →
    ∃ early, m.joinedAt = some early ∧ early.instant ≤ late.instant
  credentials : n.credentials ≤ m.credentials

/-- Credentials with the same key name the same identities. -/
theorem Credential.names_eq_of_key {c d : Credential} (same : d.key = c.key) (id : String) :
    d.names id = c.names id := by
  rw [names, names, issuer_eq_of_key same, subject_eq_of_key same]

namespace Graph

/-- A graph has lost nothing of another one: each node is there and tells no less, and each edge has
a counterpart with its key, which is reciprocal if the edge was. -/
structure Extends (g' g : Graph) : Prop where
  ids : g.ids ⊆ g'.ids
  nodes : ∀ n ∈ g.nodes, ∃ m ∈ g'.nodes, m.AtLeast n
  edges : ∀ e ∈ g.edges, ∃ f ∈ g'.edges, f.key = e.key ∧
    (e.reciprocal = true → f.reciprocal = true)

variable {naming naming' : Naming} {root : String} {now now' : Reading} {items whole : List Item}

/-- What credentials are taken from fewer items, and from more: for each of the first there is one
of the others with the same key that is no younger. -/
theorem exists_takenFrom_rank_le
    (more : items.filterMap Item.credential? ⊆ whole.filterMap Item.credential?) {id : String}
    {c : Credential} (taken : c ∈ (takenFrom items).filter (·.names id)) :
    ∃ d ∈ (takenFrom whole).filter (·.names id), d.key = c.key ∧ d.rank ≤ c.rank := by
  obtain ⟨inside, named⟩ := List.mem_filter.mp taken
  obtain ⟨d, other, same, before⟩ := Credential.exists_accepted_rank_le more inside
  refine ⟨d, List.mem_filter.mpr ⟨other, ?_⟩, same, before⟩
  rwa [Credential.names_eq_of_key same]

theorem built_ids_subset
    (more : items.filterMap Item.credential? ⊆ whole.filterMap Item.credential?) :
    (built naming root now items).ids ⊆ (built naming' root now' whole).ids := by
  intro id known
  rw [mem_built_ids_iff] at known ⊢
  refine known.imp_right ?_
  rintro ⟨c, member, named⟩
  exact ⟨c, more member, named⟩

theorem built_ends_subperm
    (more : items.filterMap Item.credential? ⊆ whole.filterMap Item.credential?) :
    ((built naming root now items).edges.map Edge.ends).Subperm
      ((built naming' root now' whole).edges.map Edge.ends) := by
  have ends : ∀ cs : List Credential, cs.map (fun c => (c.issuer, c.subject)) =
      (cs.map Credential.key).map fun k => (k.1, k.2.1) := fun cs => by
    rw [List.map_map]
    rfl
  rw [built_ends, built_ends, ends, ends]
  obtain ⟨keys, perm, part⟩ := Credential.accepted_keys_subperm more
  exact ⟨_, perm.map _, part.map _⟩

/-- The graph of more items embeds the graph of fewer. -/
theorem built_embeds
    (more : items.filterMap Item.credential? ⊆ whole.filterMap Item.credential?) :
    (built naming' root now' whole).Embeds (built naming root now items) where
  root := rfl
  ids := built_ids_subset more
  ends := built_ends_subperm more
  marked := built_marked
  marked' := built_marked

theorem countP_names_le
    (more : items.filterMap Item.credential? ⊆ whole.filterMap Item.credential?) (id : String) :
    (takenFrom items).countP (·.names id) ≤ (takenFrom whole).countP (·.names id) := by
  have counted := (Credential.accepted_keys_subperm more).countP_le fun k => k.1 = id || k.2.1 = id
  rwa [List.countP_map, List.countP_map] at counted

/-- An older credential may take the place of one that an identity joined with, but no younger
one. -/
theorem built_node_atLeast
    (more : items.filterMap Item.credential? ⊆ whole.filterMap Item.credential?) {id : String}
    {n m : Node} (before : (built naming root now items).node? id = some n)
    (after : (built naming' root now' whole).node? id = some m) : m.AtLeast n := by
  obtain ⟨earliest, count⟩ := built_node_sums before
  obtain ⟨earliest', count'⟩ := built_node_sums after
  refine ⟨(node?_id after).trans (node?_id before).symm, fun late joined => ?_, ?_⟩
  · rw [joined] at earliest
    obtain ⟨c, taken, time⟩ := List.mem_map.mp earliest.1
    obtain ⟨r, dated, rfl⟩ := Option.map_eq_some_iff.mp time
    obtain ⟨d, other, _, older⟩ := exists_takenFrom_rank_le more taken
    obtain ⟨q, bound, dated'⟩ := Credential.exists_issuedAt_of_rank_le older dated
    have time' : d.joinedAt = some (.ofUtc q) := by rw [Credential.joinedAt, dated', Option.map_some]
    have member : some (.ofUtc q) ∈
        ((takenFrom whole).filter (·.names id)).map Credential.joinedAt :=
      List.mem_map.mpr ⟨d, other, time'⟩
    obtain ⟨early, joined', least⟩ := earliest'.exists_le member
    rw [Timestamp.instant_ofUtc] at least ⊢
    exact ⟨early, joined', least.trans (Int.ofNat_le.mpr bound)⟩
  · rw [count, count']
    exact_mod_cast countP_names_le more id

theorem built_extends (sound : (built naming root now items).Sound)
    (more : items.filterMap Item.credential? ⊆ whole.filterMap Item.credential?) :
    (built naming' root now' whole).Extends (built naming root now items) where
  ids := built_ids_subset more
  nodes := by
    intro n member
    have before := (node?_eq_some_iff sound).mpr ⟨member, rfl⟩
    have known := @built_ids_subset naming naming' root now now' _ _ more _ (mem_ids_of_node? before)
    obtain ⟨m, after⟩ := exists_node? known
    exact ⟨m, List.mem_of_find?_eq_some after, built_node_atLeast more before after⟩
  edges := by
    intro e member
    have marked := built_marked e member
    have embeds := @built_embeds naming naming' root now now' _ _ more
    rw [built_edges_eq] at member
    obtain ⟨c, taken, rfl⟩ := List.mem_map.mp member
    -- The counterpart may be drawn by another credential with the same key, so marks are compared
    -- by the ends of edges.
    obtain ⟨d, other, same, _⟩ := Credential.exists_accepted_rank_le more taken
    have counterpart : d.edgeAmong (takenFrom whole) ∈ (built naming' root now' whole).edges := by
      rw [built_edges_eq]
      exact List.mem_map_of_mem other
    refine ⟨_, counterpart, same, fun returned => ?_⟩
    rw [marked] at returned
    rw [built_marked _ counterpart]
    change (built naming' root now' whole).isReciprocal d.issuer d.subject = true
    rw [Credential.issuer_eq_of_key same, Credential.subject_eq_of_key same]
    exact embeds.isReciprocal returned

/-- More credentials only make a graph grow, wherever in a store they come: no identity, relation or
mark goes away, nobody joins later or counts fewer credentials, and nobody's standing gets worse. -/
theorem build_extends {α : Type} [Add α] [Sub α] [Mul α] [NatCast α] {store store' : Store}
    {others : List Item} {g g' : Graph} (w : Weights α) (mixed : Interleaved items others whole)
    (listed : store.list = .ok items) (relisted : store'.list = .ok whole)
    (run : build naming root now store = .ok g) (run' : build naming' root now' store' = .ok g') :
    g'.Extends g ∧ ∀ s ∈ g.scores w,
      ∃ t ∈ g'.scores w, t.id = s.id ∧ t.standing.AtLeast s.standing := by
  have sound := (build_reached run).sound
  have sound' := (build_reached run').sound
  obtain ⟨_, _, rfl⟩ := build_cases_of_list listed run
  obtain ⟨_, _, rfl⟩ := build_cases_of_list relisted run'
  have more := (mixed.filterMap Item.credential?).sublist.subset
  have grown : (built naming' root now' whole).Extends (built naming root now items) :=
    built_extends sound more
  refine ⟨grown, fun s member => ?_⟩
  rw [scores_eq sound] at member
  obtain ⟨n, node, rfl⟩ := List.mem_map.mp member
  have known : n.id ∈ (built naming root now items).ids := List.mem_map_of_mem node
  have known' := grown.ids known
  refine ⟨_, score_mem_scores sound' known' w, ?_, ?_⟩
  · rw [score_id, score_id]
  · rw [score_standing known, score_standing known']
    exact (built_embeds more).standing_atLeast sound sound' n.id

/-- A dated copy of a membership and an answer to it: the membership is replaced by its copy, and it
is reciprocal from then on. -/
theorem build_extends_correspondence :
    ∃ g g', build {} "R" .dawn (.memory [.joining []]) = .ok g ∧
      build {} "R" .dawn (.memory correspondence) = .ok g' ∧ g'.Extends g ∧
      (∀ s ∈ g.scores ({} : Settings).weights, ∃ t ∈ g'.scores ({} : Settings).weights,
        t.id = s.id ∧ t.standing.AtLeast s.standing) ∧
      g.edges.map (fun e => (e.key, e.issuedAt, e.reciprocal)) = [(("R", "A", "1"), none, false)] ∧
      g'.edges.map (fun e => (e.key, e.issuedAt, e.reciprocal)) =
        [(("A", "R", "0"), some (.ofUtc .dawn), true),
          (("R", "A", "1"), some (.ofUtc .dawn), true)] := by
  have mixed : Interleaved [.joining []]
      [.joining [("dt", .time (.ofUtc .dawn))], .raw (.record []), .record {
        id := .text "0"
        schema := .text "invitation"
        issuer := .text "A"
        subject := .text "R"
        issuedAt := .time (.ofUtc .dawn) }] correspondence := .right (.left (.right (.right .nil)))
  obtain ⟨extended, standings⟩ :=
    build_extends ({} : Settings).weights mixed rfl rfl build_joining build_correspondence
  refine ⟨_, _, build_joining, build_correspondence, extended, standings, ?_, ?_⟩
  · rw [built_edges_eq, takenFrom_joining]
    decide +kernel
  · rw [built_edges_eq, takenFrom_correspondence]
    decide +kernel

end Graph

end Vouch
