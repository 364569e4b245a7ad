import Vouch.Proofs.Graph.Built
import Vouch.Proofs.Score.Ranking
import Vouch.Proofs.Score.Topology

namespace Vouch

/-- What a mention says apart from texts: whom it is about, a time and a number. -/
def gist (call : String × Mention) : String × Option Timestamp × Int :=
  (call.1, call.2.joinedAt, call.2.credentials)

/-- What a credential with a key and a time says about its parties, apart from texts. -/
def gistOf (x : (String × String × String) × Option Reading) :
    List (String × Option Timestamp × Int) :=
  (if x.1.1 = x.1.2.1 then [] else [(x.1.1, x.2.map Timestamp.ofUtc, 1)]) ++
    [(x.1.2.1, x.2.map Timestamp.ofUtc, 1)]

theorem Credential.mentions_gist (root : String) (c : Credential) :
    (c.mentions root).map gist = gistOf c.dated := by
  by_cases self : c.issuer = c.subject <;>
    simp [mentions, gistOf, dated, key, gist, issuerMention, subjectMention, joinedAt, self]

namespace Graph

variable {naming : Naming} {root : String}

theorem statements_gist (naming : Naming) (root : String) (cs : List Credential) :
    (statements naming root cs).map gist =
      (root, none, 0) :: (cs.map Credential.dated).flatMap gistOf := by
  rw [statements, List.map_cons, List.map_flatMap, List.flatMap_map]
  simp only [Credential.mentions_gist]
  rfl

theorem statements_gist_perm (naming : Naming) (root : String) {cs ds : List Credential}
    (same : (cs.map Credential.dated).Perm (ds.map Credential.dated)) :
    ((statements naming root cs).map gist).Perm ((statements naming root ds).map gist) := by
  rw [statements_gist, statements_gist]
  exact (same.flatMap_right gistOf).cons _

theorem saidOf_gist (id : String) (calls : List (String × Mention)) :
    (Node.saidOf id calls).map (fun m => (m.joinedAt, m.credentials)) =
      ((calls.map gist).filter (·.1 = id)).map Prod.snd := by
  rw [Node.saidOf, List.filter_map, List.map_map, List.map_map]
  rfl

/-- What is topology about an identity comes from what is said apart from texts. -/
theorem told_fact_eq (naming : Naming) (root : String) {cs ds : List Credential}
    (same : (cs.map Credential.dated).Perm (ds.map Credential.dated)) (id : String) :
    (Node.told id naming.defaultRole (Node.saidOf id (statements naming root cs))).fact =
      (Node.told id naming.defaultRole (Node.saidOf id (statements naming root ds))).fact := by
  have said : ((Node.saidOf id (statements naming root cs)).map fun m =>
      (m.joinedAt, m.credentials)).Perm
      ((Node.saidOf id (statements naming root ds)).map fun m => (m.joinedAt, m.credentials)) := by
    rw [saidOf_gist, saidOf_gist]
    exact ((statements_gist_perm naming root same).filter _).map _
  have timed := statements_timed naming root cs
  obtain ⟨least, sum⟩ := timed.told_sums id naming.defaultRole
  obtain ⟨least', sum'⟩ := (statements_timed naming root ds).told_sums id naming.defaultRole
  -- The same times and counts are said, so their least one and their sum are the same.
  have times := said.map Prod.fst
  have counts := said.map Prod.snd
  rw [List.map_map, List.map_map] at times counts
  have joined := least.unique (fun t member => by
    obtain ⟨m, inside, time⟩ := List.mem_map.mp member
    exact timed.saidOf inside time) (fun t => times.mem_iff) least'
  have credentials := sum.trans (counts.sum_eq.trans sum'.symm)
  rw [Node.fact, Node.fact, Node.told_id, Node.told_id, joined, credentials]

theorem drawn_nodes_perm (naming : Naming) (root : String) {cs ds : List Credential}
    (same : (cs.map Credential.dated).Perm (ds.map Credential.dated)) :
    ((drawn naming root cs).nodes.map Node.fact).Perm
      ((drawn naming root ds).nodes.map Node.fact) := by
  have mentioned : ∀ id, id ∈ (statements naming root cs).map Prod.fst ↔
      id ∈ (statements naming root ds).map Prod.fst := by
    intro id
    have ids := (statements_gist_perm naming root same).map Prod.fst
    rw [List.map_map, List.map_map] at ids
    exact ids.mem_iff
  simp only [drawn, sketch, Node.table, List.map_map]
  simp only [Function.comp_def, told_fact_eq naming root same]
  exact (eraseDups_perm mentioned).map _

theorem drawn_links_eq {cs ds : List Credential}
    (same : (cs.map Credential.dated).Perm (ds.map Credential.dated)) (a b : String) :
    (drawn naming root cs).links a b = (drawn naming root ds).links a b := by
  have found : ((cs.map Credential.dated).any fun x => x.1.1 = a && x.1.2.1 = b) =
      (ds.map Credential.dated).any fun x => x.1.1 = a && x.1.2.1 = b := same.any_eq
  rw [List.any_map, List.any_map] at found
  simp only [links, drawn, sketch, List.any_map]
  exact found

/-- The edge that a credential with a key and a time draws, apart from the kind. -/
def datedFact (reciprocal : String → String → Bool)
    (x : (String × String × String) × Option Reading) :
    String × String × String × Option Timestamp × Bool :=
  (x.1.1, x.1.2.1, x.1.2.2, x.2.map Timestamp.ofUtc, reciprocal x.1.1 x.1.2.1)

theorem drawn_mark_edges_perm {cs ds : List Credential}
    (same : (cs.map Credential.dated).Perm (ds.map Credential.dated)) :
    ((drawn naming root cs).mark.edges.map Edge.fact).Perm
      ((drawn naming root ds).mark.edges.map Edge.fact) := by
  have facts : ∀ es, (drawn naming root es).mark.edges.map Edge.fact =
      (es.map Credential.dated).map (datedFact (drawn naming root es).isReciprocal) := by
    intro es
    simp only [mark, drawn, sketch, List.map_map]
    rfl
  have reciprocal : (drawn naming root cs).isReciprocal = (drawn naming root ds).isReciprocal := by
    funext a b
    simp only [isReciprocal, drawn_links_eq same]
  rw [facts, facts, reciprocal]
  exact same.map _

theorem fillLabels_facts (g : Graph) (naming : Naming) :
    (g.fillLabels naming).nodes.map Node.fact = g.nodes.map Node.fact := by
  simp only [fillLabels, List.map_map]
  rfl

theorem built_sameTopology {now now' : Reading} {items items' : List Item}
    (sound : (built naming root now items).Sound) (sound' : (built naming root now' items').Sound)
    (perm : items.Perm items') :
    (built naming root now items).SameTopology (built naming root now' items') where
  root := rfl
  ids_nodup := ⟨sound.ids_nodup, sound'.ids_nodup⟩
  nodes := by
    have same := Credential.accepted_dated_perm (perm.filterMap Item.credential?)
    change ((fillLabels naming _).nodes.map Node.fact).Perm ((fillLabels naming _).nodes.map Node.fact)
    rw [fillLabels_facts, fillLabels_facts]
    exact drawn_nodes_perm naming root same
  edges := drawn_mark_edges_perm (Credential.accepted_dated_perm (perm.filterMap Item.credential?))

/-- The order of a store does not matter to topology and scores, not even where identifiers are
there twice and times are equal: if a build succeeds, it does so in any other order as well, and
gives the same identities, relations, times, counts, standings and values. As long as all values
are numbers, the identities come in the same order in any ranking. -/
theorem build_sameTopology {now now' : Reading} {store store' : Store} {items items' : List Item}
    {g : Graph} (listed : store.list = .ok items) (relisted : store'.list = .ok items')
    (perm : items.Perm items') (run : build naming root now store = .ok g) :
    ∃ g', build naming root now' store' = .ok g' ∧ g.SameTopology g' ∧
      ∀ w : Weights Float, ((g.scores w).map Score.fact).Perm ((g'.scores w).map Score.fact) ∧
        ((∀ s ∈ g.scores w, s.value.isNaN = false) →
          ∀ n, (g.top w n).map Score.id = (g'.top w n).map Score.id) := by
  obtain ⟨named, others, again, sound, rfl⟩ := build_cases run
  obtain rfl : others = items := Except.ok.inj (again.symm.trans listed)
  have run' : build naming root now' store' = .ok (built naming root now' items') :=
    build_eq_built named relisted fun item member => sound item (perm.mem_iff.mpr member)
  have reached := (build_reached run).sound
  have reached' := (build_reached run').sound
  have same := built_sameTopology reached reached' perm
  refine ⟨_, run', same, fun w => ⟨same.scores_perm reached reached' w, ?_⟩⟩
  intro numbers n
  have scores := same.scores_perm reached reached' w
  have numbers' : ∀ s ∈ (built naming root now' items').scores w, s.value.isNaN = false := by
    intro s member
    obtain ⟨t, inside, fact⟩ := List.mem_map.mp (scores.mem_iff.mpr (List.mem_map_of_mem member))
    have value : t.value = s.value := congrArg (·.2.2) fact
    exact value ▸ numbers t inside
  have places := scores.map fun x =>
    toLex (OrderDual.toDual (Decimal.place x.2.2), toLex (reach x.2.1.depth, x.1))
  rw [List.map_map, List.map_map] at places
  have ids := ranked_ids_eq Decimal.place (fun s t inS inT =>
    Decimal.le_iff_place_le (inS.elim (numbers s) (numbers' s)) (inT.elim (numbers t) (numbers' t)))
    places
  rw [top, top, List.map_take, List.map_take, ids]

/-- A membership that only says what role it gives. -/
def welcome (role : String) : Item := .joining [("role", .text role)]

/-- What becomes of two such memberships, whichever of them comes first in a store. -/
def welcomed (role : String) : Graph where
  root := "R"
  builtAt := some (.ofUtc .dawn)
  nodes := [⟨"R", some "R", "organization", none, 1, none⟩, ⟨"A", some "A", role, none, 1, none⟩]
  edges := [⟨"R", "A", .membership, "1", none, false⟩]

theorem build_sameTopology_welcome :
    ∃ g', build {} "R" .dawn (.memory [welcome "host", welcome "guest"]) = .ok g' ∧
      g' ≠ welcomed "guest" ∧ (welcomed "guest").SameTopology g' ∧
      ∀ n, ((welcomed "guest").top ({} : Settings).weights n).map Score.id =
        (g'.top ({} : Settings).weights n).map Score.id := by
  have run : build {} "R" .dawn (.memory [welcome "guest", welcome "host"]) =
      .ok (welcomed "guest") := by cbv
  have rerun : build {} "R" .dawn (.memory [welcome "host", welcome "guest"]) =
      .ok (welcomed "host") := by cbv
  obtain ⟨g', run', same, ranking⟩ := @build_sameTopology {} "R" .dawn .dawn (.memory _) (.memory _)
    _ _ _ rfl rfl (List.Perm.swap _ _ []) run
  have numbers : ∀ s ∈ (welcomed "guest").scores ({} : Settings).weights, s.value.isNaN = false := by
    have levels : (welcomed "guest").rootLevels = [["R"], ["A"]] := by cbv
    rw [scores, levels]
    decide +kernel
  obtain rfl : welcomed "host" = g' := Except.ok.inj (rerun.symm.trans run')
  exact ⟨_, run', by decide +kernel, same, (ranking _).2 numbers⟩

end Graph

end Vouch
