import Vouch.Proofs.Graph.Named
import Vouch.Proofs.Score.Standing

namespace Vouch

namespace Credential

/-- Whether a credential is returned is settled among those that name one of its parties. -/
theorem isReturned_filter_names (cs : List Credential) {c : Credential} {id : String}
    (named : c.names id = true) : c.isReturned (cs.filter (·.names id)) = c.isReturned cs := by
  rw [isReturned, isReturned, List.any_filter]
  congr 1
  refine List.any_congr rfl fun d => ?_
  by_cases returns : (d.issuer = c.subject && d.subject = c.issuer) = true
  · -- An answer names the same parties as the credential itself, so the filter has kept it.
    have back : d.names id = true := by
      simp only [Bool.and_eq_true, decide_eq_true_eq] at returns
      rw [names_iff, returns.1, returns.2]
      exact (names_iff.mp named).symm
    rw [back, Bool.true_and]
  · rw [Bool.not_eq_true] at returns
    rw [returns, Bool.and_false]

end Credential

/-- No item yields a credential that names an identity. -/
def Unnamed (items : List Item) (id : String) : Prop :=
  ∀ item ∈ items, ∀ c, item.decode = .ok c → c.issuer ≠ id ∧ c.subject ≠ id

namespace Graph

variable {naming : Naming} {root id : String} {now now' : Reading}
  {items others whole : List Item}

theorem takenFrom_filter_names (mixed : Interleaved items others whole)
    (unnamed : Unnamed others id) :
    (takenFrom whole).filter (·.names id) = (takenFrom items).filter (·.names id) := by
  have silent : ∀ c ∈ others.filterMap Item.credential?, ¬ c.names id = true := by
    intro c member named
    obtain ⟨item, inside, found⟩ := List.mem_filterMap.mp member
    obtain ⟨issuer, subject⟩ := unnamed item inside c (Item.credential?_eq_some_iff.mp found)
    exact (Credential.names_iff.mp named).elim issuer subject
  have same := (mixed.filterMap Item.credential?).filter_eq silent
  rw [takenFrom, takenFrom, Credential.accepted_filter_names, Credential.accepted_filter_names, same]

/-- The edges of an identity are what the credentials that name it make of each other. -/
theorem built_touching (naming : Naming) (root : String) (now : Reading) (items : List Item)
    (id : String) :
    (built naming root now items).touching id =
      ((takenFrom items).filter (·.names id)).map
        (Credential.edgeAmong ((takenFrom items).filter (·.names id))) := by
  rw [touching, built_edges_eq, List.filter_map]
  refine List.map_congr_left fun c member => ?_
  have named : c.names id = true := (List.mem_filter.mp member).2
  rw [Credential.edgeAmong, Credential.edgeAmong, Credential.isReturned_filter_names _ named]

/-- Two built graphs agree on an identity that the same accepted credentials name. -/
theorem built_agreesOn
    (same : (takenFrom whole).filter (·.names id) = (takenFrom items).filter (·.names id)) :
    (built naming root now items).AgreesOn (built naming root now' whole) id where
  root := rfl
  node := by rw [built_node?_eq, built_node?_eq, drawn_node?_congr same]
  touching := by rw [built_touching, built_touching, same]

/-- Credentials about others do not touch an identity: neither its node nor anything in its standing
besides the distance from the root. If they do not name anybody either whom it can reach, then its
distance and its whole score are the same as well. -/
theorem build_unnamed {α : Type} [Add α] [Sub α] [Mul α] [NatCast α] {store store' : Store}
    {g g' : Graph} (w : Weights α) (mixed : Interleaved items others whole)
    (listed : store.list = .ok items) (relisted : store'.list = .ok whole)
    (run : build naming root now store = .ok g) (run' : build naming root now' store' = .ok g')
    (unnamed : Unnamed others id) :
    (g.node? id = g'.node? id ∧
        (g.score w id).standing.SameUpToDepth (g'.score w id).standing) ∧
      ((∀ other hops, g.Chain hops id other → Unnamed others other) →
        g.score w id = g'.score w id ∧ ∀ s ∈ g.scores w, s.id = id → s ∈ g'.scores w) := by
  have sound := (build_reached run).sound
  have sound' := (build_reached run').sound
  obtain ⟨_, _, rfl⟩ := build_cases_of_list listed run
  obtain ⟨_, _, rfl⟩ := build_cases_of_list relisted run'
  have agrees : ∀ other, Unnamed others other →
      (built naming root now items).AgreesOn (built naming root now' whole) other :=
    fun other apart => built_agreesOn (takenFrom_filter_names mixed apart)
  have here := agrees id unnamed
  refine ⟨⟨here.node, here.score_sameUpToDepth w⟩, fun apart => ?_⟩
  have score := AgreesOn.score_eq sound sound' root_mem_built_ids root_mem_built_ids
    (fun other hops chain => agrees other (apart other hops chain)) w
  refine ⟨score, fun s member own => ?_⟩
  rw [scores_eq sound] at member
  obtain ⟨n, node, rfl⟩ := List.mem_map.mp member
  rw [score_id] at own
  have found := (node?_eq_some_iff sound).mpr ⟨node, own⟩
  rw [here.node] at found
  rw [own, score]
  exact score_mem_scores sound' (mem_ids_of_node? found) w

/-- No chain leads out of a set of identities that no edge crosses. -/
theorem Chain.mem_of_uncrossed {g : Graph} {ids : List String}
    (uncrossed : ∀ e ∈ g.edges, e.source ∈ ids ↔ e.target ∈ ids) {n : Nat} {a b : String}
    (chain : g.Chain n a b) (start : a ∈ ids) : b ∈ ids := by
  induction chain with
  | here => exact start
  | step _ last ih =>
    obtain ⟨e, member, ⟨rfl, rfl⟩ | ⟨rfl, rfl⟩⟩ := last
    · exact (uncrossed e member).mp (ih start)
    · exact (uncrossed e member).mpr (ih start)

/-- A claim that somebody makes about themself. -/
def bystander : Item :=
  .record { id := .text "1", schema := .text "self_claim", issuer := .text "B" }

theorem bystander_decode :
    bystander.decode = .ok ⟨"1", "B", "B", none, none, none, .selfClaim⟩ := by decide +kernel

/-- A member whom the root has let in does not notice the claim of the other one, who has entered
before. -/
theorem build_unnamed_bystander :
    ∃ g g', build {} "R" .dawn (.memory [.joining []]) = .ok g ∧
      build {} "R" .dawn (.memory [bystander, .joining []]) = .ok g' ∧
      g.node? "A" = g'.node? "A" ∧
      g.score ({} : Settings).weights "A" = g'.score ({} : Settings).weights "A" ∧
      g.ids = ["R", "A"] ∧ g'.ids = ["R", "B", "A"] := by
  have unnamed : ∀ id ≠ "B", Unnamed [bystander] id := by
    intro id foreign item member c decoded
    rw [List.mem_singleton.mp member, bystander_decode] at decoded
    cases decoded
    exact ⟨foreign.symm, foreign.symm⟩
  have inside : ∀ item ∈ [bystander, .joining []], ¬ item.BreaksOff := by
    simp only [Item.BreaksOff]
    decide +kernel
  have taken : takenFrom [bystander, .joining []] =
      [⟨"1", "B", "B", none, none, none, .selfClaim⟩,
        ⟨"1", "R", "A", none, none, none, .membership none none []⟩] := by cbv
  have run' : build {} "R" .dawn (.memory [bystander, .joining []]) =
      .ok (built {} "R" .dawn [bystander, .joining []]) :=
    build_eq_built (by decide) rfl inside
  have uncrossed : ∀ e ∈ (built {} "R" .dawn [.joining []]).edges,
      e.source ∈ ["R", "A"] ↔ e.target ∈ ["R", "A"] := by
    rw [built_edges_eq, takenFrom_joining]
    decide +kernel
  have apart : ∀ other hops, (built {} "R" .dawn [.joining []]).Chain hops "A" other →
      Unnamed [bystander] other := by
    intro other hops chain
    refine unnamed other ?_
    rintro rfl
    exact absurd (chain.mem_of_uncrossed uncrossed (by decide)) (by decide)
  obtain ⟨⟨node, _⟩, unmoved⟩ := build_unnamed ({} : Settings).weights (.right (.left .nil)) rfl rfl
    build_joining run' (unnamed "A" (by decide))
  refine ⟨_, _, build_joining, run', node, (unmoved apart).1, ?_, ?_⟩
  · rw [built_ids, drawn_ids, takenFrom_joining]
    decide
  · rw [built_ids, drawn_ids, taken]
    decide

end Graph

end Vouch
