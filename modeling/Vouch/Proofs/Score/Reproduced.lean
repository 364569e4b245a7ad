import Vouch.Proofs.Graph.Tally
import Vouch.Report

namespace Vouch

namespace Credential

/-- Times and identifiers tell credentials apart: those that have both in common are the same. -/
def ToldApart (cs : List Credential) : Prop :=
  ∀ c ∈ cs, ∀ d ∈ cs, c.issuedAt = d.issuedAt → c.id = d.id → c = d

/-- Sorting leaves no choice where times and identifiers tell credentials apart. -/
theorem chronicle_eq_of_perm {cs ds : List Credential} (apart : ToldApart cs) (perm : cs.Perm ds) :
    chronicle cs = chronicle ds := by
  -- Antisymmetry fails for credentials in general, so it is shown for the members of these lists.
  have antisymm : ∀ c d, c ∈ chronicle cs → d ∈ chronicle ds → c.rank ≤ d.rank →
      d.rank ≤ c.rank → c = d := by
    intro c d inside inside' before after
    obtain ⟨time, id⟩ := rank_eq_iff.mp (before.antisymm after)
    have member := (chronicle_perm cs).subset inside
    have member' := perm.symm.subset ((chronicle_perm ds).subset inside')
    exact apart c member d member' time id
  have same := (chronicle_perm cs).trans (perm.trans (chronicle_perm ds).symm)
  exact same.eq_of_pairwise antisymm (chronicle_sorted cs) (chronicle_sorted ds)

end Credential

/-- What a report says in numbers: all scores, the first ones of the ranking, and the summary. -/
def Report.figures (r : Report) : List (Score Float) × List (Score Float) × Summary Float :=
  (r.scores, r.top, r.summary)

namespace Graph

/-- A graph with another time of its making and other complaints about what was left out. -/
def noted (g : Graph) (time : Option Timestamp) (complaints : List String) : Graph :=
  { g with builtAt := time, skipped := complaints }

variable (g : Graph) (time : Option Timestamp) (complaints : List String)

theorem noted_levels (s : Side) : s.levels (g.noted time complaints) = s.levels g := by
  -- A search only asks for nodes and edges, so in both graphs it takes the same steps.
  induction s using Side.levels.induct g with
  | case1 s last =>
    rw [Side.levels.eq_def g s, dif_pos last, Side.levels.eq_def]
    exact dif_pos last
  | case2 s further ih =>
    rw [Side.levels.eq_def g s, dif_neg further, ← ih, Side.levels.eq_def]
    exact dif_neg further

theorem noted_rootLevels : (g.noted time complaints).rootLevels = g.rootLevels := by
  unfold rootLevels levelsFrom
  rw [noted_levels]
  rfl

theorem noted_scores (w : Weights Float) : (g.noted time complaints).scores w = g.scores w := by
  unfold scores
  rw [noted_rootLevels]
  rfl

theorem noted_around (naming : Naming) (id : String) (hops : Nat) :
    (g.noted time complaints).around naming id hops =
      (g.around naming id hops).noted time complaints := by
  have within : (g.noted time complaints).within id hops = g.within id hops := by
    unfold within levelsFrom
    rw [noted_levels]
    rfl
  have bare : (g.noted time complaints).bare naming id = (g.bare naming id).noted time complaints :=
    rfl
  have present : (g.noted time complaints).hasNode id = g.hasNode id := rfl
  unfold around
  rw [within, bare, present]
  by_cases unknown : (!g.hasNode id) = true
  · rw [if_pos unknown, if_pos unknown]
    rfl
  · rw [if_neg unknown, if_neg unknown]
    by_cases alone : hops = 0
    · rw [if_pos alone, if_pos alone]
      rfl
    · rw [if_neg alone, if_neg alone]
      rfl

/-- Neither the time of its making nor complaints count among the figures of a graph. -/
theorem noted_figures (settings : Settings) (count : Option Int) :
    ((g.noted time complaints).report settings count).figures = (g.report settings count).figures := by
  simp only [report, Report.figures, top, summary, noted_scores]
  rfl

/-- If credentials are told apart, a built graph depends on their order by its complaints alone. -/
theorem built_eq_noted {naming : Naming} {root : String} {now now' : Reading}
    {items items' : List Item} (apart : Credential.ToldApart (items.filterMap Item.credential?))
    (perm : items.Perm items') :
    built naming root now' items' = (built naming root now items).noted (some (.ofUtc now'))
      ((items'.filterMap Item.malformed?).map Malformed.message) := by
  have taken : takenFrom items' = takenFrom items := by
    rw [takenFrom, takenFrom, Credential.accepted, Credential.accepted,
      Credential.chronicle_eq_of_perm apart (perm.filterMap _)]
  rw [built, taken]
  rfl

/-- A build can be repeated from a store in any other order, if times and identifiers tell its
credentials apart: the tables of nodes and edges are the same, with the same order, and so is every
score, ranking and summary of the graph or of a part of it. -/
theorem build_reproduced {settings : Settings} {root : String} {now now' : Reading}
    {store store' : Store} {items items' : List Item} {g : Graph}
    (listed : store.list = .ok items) (relisted : store'.list = .ok items')
    (perm : items.Perm items') (apart : Credential.ToldApart (items.filterMap Item.credential?))
    (run : build settings.naming root now store = .ok g) :
    ∃ g', build settings.naming root now' store' = .ok g' ∧ g'.nodes = g.nodes ∧
      g'.edges = g.edges ∧ g'.skipped.Perm g.skipped ∧ ∀ around depth count,
        ((Inquiry.mk root around depth).report settings now' store' count).map Report.figures =
          ((Inquiry.mk root around depth).report settings now store count).map Report.figures := by
  obtain ⟨named, inside, rfl⟩ := build_cases_of_list listed run
  have run' : build settings.naming root now' store' =
      .ok (built settings.naming root now' items') :=
    build_eq_built named relisted fun item member => inside item (perm.mem_iff.mpr member)
  have noted := @built_eq_noted settings.naming root now now' _ _ apart perm
  refine ⟨_, run', by rw [noted]; rfl, by rw [noted]; rfl,
    ((perm.symm.filterMap _).map _), fun around depth count => ?_⟩
  cases around with
  | none =>
    simp only [Inquiry.report, Inquiry.graph, run, run', noted, Except.map, noted_figures]
  | some id =>
    simp only [Inquiry.report, Inquiry.graph, buildAround, if_neg named]
    by_cases negative : depth.getD settings.hops < 0
    · simp only [if_pos negative]
    · simp only [if_neg negative, run, run', noted, Except.map, noted_around, noted_figures]

/-- The letters of a correspondence can be read from the last to the first. -/
theorem build_reproduced_correspondence :
    ∃ g g', build {} "R" .dawn (.memory correspondence) = .ok g ∧
      build {} "R" .dawn (.memory correspondence.reverse) = .ok g' ∧ g'.nodes = g.nodes ∧
      g'.edges = g.edges ∧ g.edges.map Edge.key = [("A", "R", "0"), ("R", "A", "1")] ∧
      ∀ count, ((Inquiry.mk "R" (some "A") (some 1)).report {} .dawn
          (.memory correspondence.reverse) count).map Report.figures =
        ((Inquiry.mk "R" (some "A") (some 1)).report {} .dawn
          (.memory correspondence) count).map Report.figures := by
  have apart : Credential.ToldApart (correspondence.filterMap Item.credential?) := by
    rw [correspondence_credentials, Credential.ToldApart]
    decide +kernel
  obtain ⟨g', run', nodes, edges, _, figures⟩ := @build_reproduced {} "R" .dawn .dawn
    (.memory correspondence) (.memory correspondence.reverse) _ _ _ rfl rfl
    (List.reverse_perm _).symm apart build_correspondence
  refine ⟨_, g', build_correspondence, run', nodes, edges, ?_, figures (some "A") (some 1)⟩
  rw [built_edges_eq, takenFrom_correspondence]
  decide

end Graph

end Vouch
