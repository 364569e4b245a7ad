import Mathlib.Data.Finset.Card
import Vouch.Proofs.Credential.Stable
import Vouch.Proofs.Graph.Built

namespace Vouch

/-- The place of an edge in the order of time. Undated edges come last, and at the same time
identifiers decide. -/
def Edge.rank (e : Edge) : WithTop Int ×ₗ String :=
  toLex (e.issuedAt.elim ⊤ fun t => WithTop.some t.instant, e.credential)

namespace Credential

/-- Somebody else's credential runs the other way. -/
def isReturned (cs : List Credential) (c : Credential) : Bool :=
  c.issuer ≠ c.subject && cs.any fun d => d.issuer = c.subject && d.subject = c.issuer

/-- The edge that a credential is among the edges of others. -/
def edgeAmong (cs : List Credential) (c : Credential) : Edge :=
  { c.edge with reciprocal := c.isReturned cs }

/-- As many credentials are accepted as there are keys. -/
theorem length_accepted (cs : List Credential) :
    (accepted cs).length = (cs.map key).toFinset.card := by
  have same : ((accepted cs).map key).toFinset = (cs.map key).toFinset := by
    ext k
    rw [List.mem_toFinset, List.mem_toFinset, mem_keys_accepted_iff]
  rw [← same, List.toFinset_card_of_nodup (accepted_keys_nodup cs), List.length_map]

theorem edge_rank_le_iff {c d : Credential} : c.edge.rank ≤ d.edge.rank ↔ c.rank ≤ d.rank := by
  rw [Edge.rank, Edge.rank, rank, rank, Prod.Lex.toLex_le_toLex, Prod.Lex.toLex_le_toLex]
  cases issued : c.issuedAt <;> cases other : d.issuedAt <;>
    simp [edge, joinedAt, issued, other, Timestamp.instant_ofUtc]

end Credential

theorem length_eq_decoded_add_malformed {items : List Item}
    (sound : ∀ item ∈ items, ¬ item.BreaksOff) :
    items.length = (items.filterMap Item.credential?).length +
      (items.filterMap Item.malformed?).length := by
  induction items with
  | nil => rfl
  | cons item items ih =>
    have rest := ih fun other member => sound other (List.mem_cons_of_mem _ member)
    cases run : item.decode with
    | ok c =>
      simp [Item.credential?, Item.malformed?, run, rest, Except.toOption]
      omega
    | error cause =>
      cases cause with
      | malformed cause =>
        simp [Item.credential?, Item.malformed?, run, rest, Except.toOption]
        omega
      | interrupted cause =>
        exact absurd (Item.breaksOff_iff_exists.mpr ⟨cause, run⟩) (sound item List.mem_cons_self)

namespace Graph

variable {naming : Naming} {root : String} {now : Reading}

theorem drawn_isReciprocal {cs : List Credential} {c : Credential} (taken : c ∈ cs) :
    (drawn naming root cs).isReciprocal c.issuer c.subject = c.isReturned cs := by
  have there : (drawn naming root cs).links c.issuer c.subject = true := by
    simp only [links, drawn, sketch, List.any_map, List.any_eq_true]
    exact ⟨c, taken, by simp [Credential.edge]⟩
  have back : (drawn naming root cs).links c.subject c.issuer =
      cs.any fun d => d.issuer = c.subject && d.subject = c.issuer := by
    simp only [links, drawn, sketch, List.any_map]
    rfl
  rw [isReciprocal, there, back, Bool.and_true, Credential.isReturned]

theorem drawn_mark_edges (cs : List Credential) :
    (drawn naming root cs).mark.edges = cs.map (Credential.edgeAmong cs) := by
  simp only [mark]
  rw [drawn, sketch, List.map_map]
  refine List.map_congr_left fun c taken => ?_
  exact congrArg (fun flag => { c.edge with reciprocal := flag }) (drawn_isReciprocal taken)

/-- A claim about oneself names one identity only once, which makes no difference to the order in
which identities come up. -/
theorem mentions_eraseDups (root : String) (cs : List Credential) :
    (root :: cs.flatMap fun c => (c.mentions root).map Prod.fst).eraseDups =
      (root :: cs.flatMap fun c => [c.issuer, c.subject]).eraseDups := by
  induction cs using List.reverseRecOn with
  | nil => rfl
  | append_singleton cs c ih =>
    simp only [List.flatMap_append, List.flatMap_singleton, ← List.cons_append]
    generalize (root :: cs.flatMap fun c => (c.mentions root).map Prod.fst) = said at ih ⊢
    generalize (root :: cs.flatMap fun c => [c.issuer, c.subject]) = named at ih ⊢
    have old : ∀ ids : List String, ids.removeAll said = ids.removeAll named := fun ids =>
      List.filter_congr fun id _ => by
        have known : id ∈ said ↔ id ∈ named := by
          rw [← List.mem_eraseDups, ih, List.mem_eraseDups]
        simp only [List.elem_eq_mem, known]
    rw [List.eraseDups_append, List.eraseDups_append, ih, old]
    by_cases self : c.issuer = c.subject
    · by_cases there : c.subject ∈ named <;>
        simp [Credential.mentions, self, List.removeAll, there, List.eraseDups_cons]
    · simp [Credential.mentions, self]

/-- Identities come in the order in which the edges first name them, after the root. -/
theorem drawn_ids (cs : List Credential) :
    (drawn naming root cs).ids =
      (root :: cs.flatMap fun c => [c.issuer, c.subject]).eraseDups := by
  rw [← mentions_eraseDups, drawn, sketch, ids, Node.table_ids, statements, List.map_cons,
    List.map_flatMap]

/-- Taking credentials in counts the edges that there are in the end. -/
theorem foldlM_enterCounting_drawn (cs ds : List Credential) :
    ∃ es, ds.foldlM enter (drawn naming root cs) = .ok (drawn naming root es) ∧
      ds.foldlM enterCounting (drawn naming root cs, cs.length) =
        .ok (drawn naming root es, es.length) := by
  induction ds generalizing cs with
  | nil => exact ⟨cs, rfl, rfl⟩
  | cons d ds ih =>
    rw [List.foldlM_cons, List.foldlM_cons, enterCounting, edgesAdded]
    by_cases known : d.key ∈ cs.map Credential.key
    · rw [enter_drawn_known known, if_pos (drawn_hasEdge_iff.mpr known)]
      exact ih cs
    · rw [enter_drawn_fresh known, if_neg (drawn_hasEdge_iff.not.mpr known),
        ← List.length_singleton, ← List.length_append]
      exact ih (cs ++ [d])

theorem grownCounting_eq (naming : Naming) (root : String) (cs : List Credential) :
    grownCounting naming root cs =
      .ok (drawn naming root (Credential.accepted cs), (Credential.accepted cs).length) := by
  obtain ⟨es, grows, counts⟩ :=
    @foldlM_enterCounting_drawn naming root [] (Credential.chronicle cs)
  rw [← seed_eq_drawn] at grows counts
  have same : drawn naming root es = drawn naming root (Credential.accepted cs) :=
    Except.ok.inj (grows.symm.trans (grown_eq_drawn naming root cs))
  have length : es.length = (Credential.accepted cs).length := by
    have edges := congrArg (·.edges.length) same
    simpa [drawn, sketch] using edges
  rw [grownCounting, ← same, ← length]
  exact counts

/-- What a graph that was built from items owes to them. The edges are the decoded credentials in
the order of time, the first one of each key. Nothing else makes a node, and every item that gives
no credential leaves one line. -/
structure AccountedFor (g : Graph) (naming : Naming) (root : String) (items : List Item) : Prop where
  edges : ∃ sorted, Credential.IsChronicle sorted (items.filterMap Item.credential?) ∧
    g.edges = (Credential.firsts sorted).map (Credential.edgeAmong (Credential.firsts sorted))
  keys_nodup : (g.edges.map Edge.key).Nodup
  distinct : g.edges.length =
    ((items.filterMap Item.credential?).map Credential.key).toFinset.card
  counted : ∃ grown, grownCounting naming root (items.filterMap Item.credential?) =
    .ok (grown, g.edges.length)
  chronological : g.edges.Pairwise fun e f => e.rank ≤ f.rank
  ids : g.ids = (root :: g.edges.flatMap fun e => [e.source, e.target]).eraseDups
  complete : items.length = (items.filterMap Item.credential?).length + g.skipped.length
  skipped : g.skipped = (items.filterMap Item.malformed?).map Malformed.message

theorem root_mem_built_ids {items : List Item} : root ∈ (built naming root now items).ids := by
  rw [built_ids, drawn_ids, List.mem_eraseDups]
  exact List.mem_cons_self

theorem built_edges_eq (items : List Item) :
    (built naming root now items).edges =
      (takenFrom items).map (Credential.edgeAmong (takenFrom items)) := by
  rw [built_edges, drawn_mark_edges]

theorem built_accountedFor {items : List Item} (sound : ∀ item ∈ items, ¬ item.BreaksOff) :
    (built naming root now items).AccountedFor naming root items where
  edges := ⟨_, Credential.isChronicle_chronicle _, built_edges_eq items⟩
  keys_nodup := by
    rw [built_edges_eq, List.map_map]
    exact Credential.accepted_keys_nodup _
  distinct := by
    rw [built_edges_eq, List.length_map]
    exact Credential.length_accepted _
  counted := by
    rw [built_edges_eq, List.length_map]
    exact ⟨_, grownCounting_eq naming root _⟩
  chronological := by
    rw [built_edges_eq, List.pairwise_map]
    exact (Credential.accepted_sorted _).imp Credential.edge_rank_le_iff.mpr
  ids := by
    rw [built_ids, drawn_ids, built_edges_eq, List.flatMap_map]
    rfl
  complete := by
    rw [length_eq_decoded_add_malformed sound]
    simp [built]
  skipped := rfl

theorem build_ne_graph_error (naming : Naming) (root : String) (now : Reading) (store : Store)
    (fault : GraphFault) : build naming root now store ≠ .error (.graph fault) := by
  unfold build
  split
  · simp
  split
  · simp
  unfold ofItems
  split
  · simp
  rw [grown_eq_drawn]
  simp

/-- No credential is lost, invented or entered twice, and taking credentials in never fails. -/
theorem build_accountedFor (naming : Naming) (root : String) (now : Reading) (store : Store) :
    (∀ fault, build naming root now store ≠ .error (.graph fault)) ∧
      ∀ items g, store.list = .ok items → build naming root now store = .ok g →
        g.AccountedFor naming root items := by
  refine ⟨build_ne_graph_error naming root now store, fun items g listed run => ?_⟩
  obtain ⟨_, others, again, sound, rfl⟩ := build_cases run
  obtain rfl : others = items := Except.ok.inj (again.symm.trans listed)
  exact built_accountedFor sound

/-- One membership is taken in as it is. -/
theorem takenFrom_joining :
    takenFrom [.joining []] =
      [⟨"1", "R", "A", none, none, none, .membership none none []⟩] := by cbv

theorem joining_inside : ∀ item ∈ [Item.joining []], ¬ item.BreaksOff := by
  simp only [Item.BreaksOff]
  decide +kernel

theorem build_joining :
    build {} "R" .dawn (.memory [.joining []]) = .ok (built {} "R" .dawn [.joining []]) :=
  build_eq_built (by decide) rfl joining_inside

/-- A membership, the same one again, something without a name, and an earlier answer. -/
def correspondence : List Item :=
  [.joining [("dt", .time (.ofUtc .dawn))], .joining [], .raw (.record []),
    .record {
      id := .text "0"
      schema := .text "invitation"
      issuer := .text "A"
      subject := .text "R"
      issuedAt := .time (.ofUtc .dawn) }]

theorem correspondence_inside : ∀ item ∈ correspondence, ¬ item.BreaksOff := by
  simp only [Item.BreaksOff]
  decide +kernel

theorem correspondence_credentials :
    correspondence.filterMap Item.credential? =
      [⟨"1", "R", "A", some .dawn, none, none, .membership none none []⟩,
        ⟨"1", "R", "A", none, none, none, .membership none none []⟩,
        ⟨"0", "A", "R", some .dawn, none, none, .invitation none⟩] := by decide +kernel

/-- The earlier answer and the first membership that has a date are taken in. -/
theorem takenFrom_correspondence :
    takenFrom correspondence =
      [⟨"0", "A", "R", some .dawn, none, none, .invitation none⟩,
        ⟨"1", "R", "A", some .dawn, none, none, .membership none none []⟩] := by
  rw [takenFrom, correspondence_credentials]
  cbv

theorem build_correspondence :
    build {} "R" .dawn (.memory correspondence) = .ok (built {} "R" .dawn correspondence) :=
  build_eq_built (by decide) rfl correspondence_inside

theorem build_accountedFor_correspondence :
    ∃ g, build {} "R" .dawn (.memory correspondence) = .ok g ∧
      g.AccountedFor {} "R" correspondence ∧
      g.edges.map (fun e => (e.key, e.reciprocal)) =
        [(("A", "R", "0"), true), (("R", "A", "1"), true)] ∧
      g.ids = ["R", "A"] ∧ g.skipped = ["credential '<no id>': missing credential id"] := by
  have account :=
    (build_accountedFor {} "R" .dawn (.memory correspondence)).2 _ _ rfl build_correspondence
  refine ⟨_, build_correspondence, account, ?_, ?_, ?_⟩
  · rw [built_edges_eq, takenFrom_correspondence]
    decide
  · rw [built_ids, drawn_ids, takenFrom_correspondence]
    decide
  · decide +kernel

end Graph

end Vouch
