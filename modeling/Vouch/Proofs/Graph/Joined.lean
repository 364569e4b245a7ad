import Vouch.Proofs.Graph.Named
import Vouch.Proofs.Score.Standing

namespace Vouch

/-- More times leave the earliest one as it is, if none of them comes before all that were there. -/
theorem IsEarliest.of_subset {times more : List (Option Timestamp)} {t : Option Timestamp}
    (least : IsEarliest times t) (part : times ⊆ more)
    (bound : ∀ late, some late ∈ more →
      ∃ early, some early ∈ times ∧ early.instant ≤ late.instant) : IsEarliest more t := by
  cases t with
  | none =>
    intro late member
    obtain ⟨early, inside, _⟩ := bound late member
    exact least early inside
  | some first =>
    refine ⟨part least.1, fun late member => ?_⟩
    obtain ⟨early, inside, before⟩ := bound late member
    exact (least.2 early inside).trans before

theorem IsEarliest.eq_none_iff {times : List (Option Timestamp)} {t : Option Timestamp}
    (least : IsEarliest times t) : t = none ↔ ∀ time ∈ times, time = none := by
  cases t with
  | none =>
    refine iff_of_true rfl fun time member => ?_
    cases time with
    | none => rfl
    | some s => exact absurd member (least s)
  | some s =>
    refine iff_of_false (Option.some_ne_none s) fun undated => ?_
    exact Option.some_ne_none s (undated _ least.1)

theorem countP_or_add_countP_and {α : Type} (p q : α → Bool) (xs : List α) :
    (xs.countP fun x => p x || q x) + (xs.countP fun x => p x && q x) =
      xs.countP p + xs.countP q := by
  induction xs with
  | nil => rfl
  | cons x xs ih =>
    simp only [List.countP_cons]
    cases p x <;> cases q x <;> simp <;> omega

/-- Edges that are counted identity by identity, at the one end of each, are counted once. -/
theorem sum_countP_endpoint {ids : List String} (nodup : ids.Nodup) (endpoint : Edge → String)
    (edges : List Edge) :
    (ids.map fun id => edges.countP (endpoint · = id)).sum = edges.countP (endpoint · ∈ ids) := by
  induction ids with
  | nil => simp
  | cons id ids ih =>
    obtain ⟨absent, rest⟩ := List.nodup_cons.mp nodup
    have apart : (edges.countP fun e => (endpoint e = id) && (endpoint e ∈ ids)) = 0 := by
      rw [List.countP_eq_zero]
      intro e _ both
      rw [Bool.and_eq_true, decide_eq_true_eq, decide_eq_true_eq] at both
      exact absent (both.1 ▸ both.2)
    have split := countP_or_add_countP_and (endpoint · = id) (endpoint · ∈ ids) edges
    rw [apart, Nat.add_zero] at split
    rw [List.map_cons, List.sum_cons, ih rest, ← split]
    simp only [List.mem_cons, Bool.decide_or]

/-- What a node sums up of some credentials: it has joined with the earliest one that names it, and
it counts those that name it, once for each issuer, subject and identifier. -/
structure Node.SumsUp (n : Node) (cs : List Credential) : Prop where
  joinedAt : IsEarliest ((cs.filter (·.names n.id)).map Credential.joinedAt) n.joinedAt
  undated : n.joinedAt = none ↔ ∀ c ∈ cs, c.names n.id = true → c.issuedAt = none
  credentials : n.credentials = ((cs.filter (·.names n.id)).map Credential.key).toFinset.card

namespace Credential

/-- The earliest of the credentials that are accepted is the earliest of all, since one that is left
out is no older than the one that is accepted for its key. -/
theorem isEarliest_of_accepted {cs : List Credential} {t : Option Timestamp}
    (least : IsEarliest ((accepted cs).map joinedAt) t) : IsEarliest (cs.map joinedAt) t := by
  refine least.of_subset (List.map_subset _ fun c => mem_of_mem_accepted) fun late member => ?_
  obtain ⟨c, known, time⟩ := List.mem_map.mp member
  obtain ⟨r, dated, rfl⟩ := Option.map_eq_some_iff.mp time
  obtain ⟨d, taken, _, before⟩ := exists_accepted_of_mem known
  obtain ⟨q, earlier, dated'⟩ := exists_issuedAt_of_rank_le before dated
  refine ⟨.ofUtc q, List.mem_map.mpr ⟨d, taken, ?_⟩, ?_⟩
  · rw [joinedAt, dated', Option.map_some]
  · rw [Timestamp.instant_ofUtc, Timestamp.instant_ofUtc]
    exact Int.ofNat_le.mpr earlier

end Credential

namespace Graph

variable {naming : Naming} {root id : String} {now : Reading} {items : List Item}

/-- How many edges lead from an identity to itself. -/
def loopsAt (g : Graph) (id : String) : Nat :=
  g.edges.countP fun e => e.source = id && e.target = id

/-- How many edges lead back to where they start. -/
def loops (g : Graph) : Nat := g.edges.countP fun e => e.source = e.target

theorem standing_incoming (g : Graph) (id : String) (depth : Option Nat) :
    (g.standing id depth).incoming = g.edges.countP (·.target = id) := by
  rw [List.countP_eq_length_filter]
  exact (groupEdges_perm _ _).length_eq

theorem standing_outgoing (g : Graph) (id : String) (depth : Option Nat) :
    (g.standing id depth).outgoing = g.edges.countP (·.source = id) := by
  rw [List.countP_eq_length_filter]
  exact (groupEdges_perm _ _).length_eq

/-- Edges counted at one end for every identity are all there are. -/
theorem sum_countP_eq_length {g : Graph} (sound : g.Sound) (endpoint : Edge → String)
    {edges : List Edge} (inside : ∀ e ∈ edges, endpoint e ∈ g.ids) :
    (g.ids.map fun id => edges.countP (endpoint · = id)).sum = edges.length := by
  rw [sum_countP_endpoint sound.ids_nodup]
  exact List.countP_eq_length.mpr fun e member => decide_eq_true (inside e member)

theorem sum_loopsAt {g : Graph} (sound : g.Sound) : (g.ids.map g.loopsAt).sum = g.loops := by
  have each : ∀ id, g.loopsAt id =
      (g.edges.filter fun e => e.source = e.target).countP (·.source = id) := by
    intro id
    rw [loopsAt, List.countP_filter]
    refine List.countP_congr fun e _ => ?_
    simp only [Bool.and_eq_true, decide_eq_true_eq]
    constructor
    · rintro ⟨rfl, same⟩
      exact ⟨rfl, same.symm⟩
    · rintro ⟨rfl, same⟩
      exact ⟨rfl, same.symm⟩
  have sources : ∀ e ∈ g.edges.filter fun e => e.source = e.target, e.source ∈ g.ids :=
    fun e member => (sound.ends e (List.mem_of_mem_filter member)).1
  rw [List.map_congr_left fun id _ => each id, sum_countP_eq_length sound Edge.source sources,
    loops, List.countP_eq_length_filter]

theorem built_node_sumsUp {n : Node} (sound : (built naming root now items).Sound)
    (member : n ∈ (built naming root now items).nodes) :
    n.SumsUp (items.filterMap Item.credential?) := by
  obtain ⟨earliest, count⟩ := built_node_sums ((node?_eq_some_iff sound).mpr ⟨member, rfl⟩)
  rw [takenFrom, Credential.accepted_filter_names] at earliest
  have joined := Credential.isEarliest_of_accepted earliest
  refine ⟨joined, ?_, ?_⟩
  · rw [joined.eq_none_iff, List.forall_mem_map]
    simp only [List.mem_filter, Credential.joinedAt, and_imp, Option.map_eq_none_iff]
  · rw [count, List.countP_eq_length_filter, takenFrom, Credential.accepted_filter_names,
      Credential.length_accepted]

theorem sum_countP_names {g : Graph} (sound : g.Sound) :
    (g.ids.map fun id => g.edges.countP fun e => e.source = id || e.target = id).sum + g.loops =
      2 * g.edges.length := by
  have each : ∀ id, (g.edges.countP fun e => e.source = id || e.target = id) + g.loopsAt id =
      g.edges.countP (·.source = id) + g.edges.countP (·.target = id) := fun id =>
    countP_or_add_countP_and (·.source = id) (·.target = id) g.edges
  have sources : ∀ e ∈ g.edges, e.source ∈ g.ids := fun e member => (sound.ends e member).1
  have targets : ∀ e ∈ g.edges, e.target ∈ g.ids := fun e member => (sound.ends e member).2
  rw [← sum_loopsAt sound, ← List.sum_map_add, List.map_congr_left fun id _ => each id,
    List.sum_map_add, sum_countP_eq_length sound Edge.source sources,
    sum_countP_eq_length sound Edge.target targets, Nat.two_mul]

theorem built_node_credentials {n : Node} (sound : (built naming root now items).Sound)
    (member : n ∈ (built naming root now items).nodes) :
    n.credentials =
      (built naming root now items).edges.countP fun e => e.source = n.id || e.target = n.id := by
  obtain ⟨_, count⟩ := built_node_sums ((node?_eq_some_iff sound).mpr ⟨member, rfl⟩)
  rw [count, built_edges_eq, List.countP_map]
  rfl

/-- Every node of a built graph sums up all credentials that name it, those included that gave way
to others. It counts its edges, those that lead back to it only once, and so the counts of all nodes
come to two for each edge but one for each that leads back. -/
theorem build_sumsUp {α : Type} [Add α] [Sub α] [Mul α] [NatCast α] {store : Store} {g : Graph}
    (listed : store.list = .ok items) (run : build naming root now store = .ok g)
    (w : Weights α) :
    (∀ n ∈ g.nodes, n.SumsUp (items.filterMap Item.credential?) ∧
        n.credentials = (g.score w n.id).standing.incoming + (g.score w n.id).standing.outgoing -
          g.loopsAt n.id) ∧
      (g.nodes.map Node.credentials).sum = 2 * g.edges.length - g.loops := by
  have sound := (build_reached run).sound
  obtain ⟨_, _, rfl⟩ := build_cases_of_list listed run
  refine ⟨fun n member => ⟨built_node_sumsUp sound member, ?_⟩, ?_⟩
  · rw [built_node_credentials sound member, score_standing (List.mem_map_of_mem member),
      standing_incoming, standing_outgoing]
    have split := countP_or_add_countP_and (·.source = n.id) (·.target = n.id)
      (built naming root now items).edges
    rw [loopsAt]
    omega
  · have counts : ((built naming root now items).nodes.map Node.credentials).sum =
        (((built naming root now items).ids.map fun id =>
          (built naming root now items).edges.countP fun e => e.source = id || e.target = id).sum :
          Nat) := by
      rw [Nat.cast_list_sum, ids, List.map_map, List.map_map]
      exact congrArg List.sum
        (List.map_congr_left fun n member => built_node_credentials sound member)
    have twice := sum_countP_names sound
    omega

/-- The letters of a correspondence, and before them what one of the two claims about itself. -/
def diary : List Item :=
  .record { id := .text "2", schema := .text "self_claim", issuer := .text "A" } :: correspondence

theorem diary_inside : ∀ item ∈ diary, ¬ item.BreaksOff := by
  simp only [Item.BreaksOff]
  decide +kernel

/-- The copy of the membership that has no date gives way to the one that has. -/
theorem takenFrom_diary :
    takenFrom diary = [⟨"0", "A", "R", some .dawn, none, none, .invitation none⟩,
      ⟨"1", "R", "A", some .dawn, none, none, .membership none none []⟩,
      ⟨"2", "A", "A", none, none, none, .selfClaim⟩] := by
  have credentials : diary.filterMap Item.credential? =
      ⟨"2", "A", "A", none, none, none, .selfClaim⟩ ::
        correspondence.filterMap Item.credential? := by decide +kernel
  rw [takenFrom, credentials, correspondence_credentials]
  cbv

theorem build_diary :
    build {} "R" .dawn (.memory diary) = .ok (built {} "R" .dawn diary) :=
  build_eq_built (by decide) rfl diary_inside

/-- There are three edges, one of which leads back to where it starts. -/
theorem build_sumsUp_diary :
    ∃ g, build {} "R" .dawn (.memory diary) = .ok g ∧
      (∀ n ∈ g.nodes, n.SumsUp (diary.filterMap Item.credential?)) ∧
      g.nodes.map (fun n => (n.joinedAt, n.credentials, g.loopsAt n.id)) =
        [(some (.ofUtc .dawn), 2, 0), (some (.ofUtc .dawn), 3, 1)] ∧
      (g.nodes.map Node.credentials).sum = 2 * 3 - 1 := by
  obtain ⟨each, total⟩ := build_sumsUp rfl build_diary ({} : Settings).weights
  refine ⟨_, build_diary, fun n member => (each n member).1, ?_, ?_⟩
  · rw [built, takenFrom_diary]
    decide +kernel
  · rw [total, loops, built_edges_eq, takenFrom_diary]
    decide

end Graph

end Vouch
