import Vouch.Proofs.Score.Entry
import Vouch.Proofs.Score.Ranking

namespace Vouch

/-- One score comes before another one: its value is higher, or neither value is and it is nearer to
the root, or both are equally far away and its identifier is the lesser one. -/
def Score.Precedes {α : Type} [LT α] (a b : Score α) : Prop :=
  b.value < a.value ∨ ¬ a.value < b.value ∧
    (reach a.standing.depth < reach b.standing.depth ∨
      reach a.standing.depth = reach b.standing.depth ∧ a.id < b.id)

theorem Score.precedes_iff {a b : Score Float} (first : a.value.isNaN = false)
    (second : b.value.isNaN = false) :
    a.Precedes b ↔ a.place Decimal.place < b.place Decimal.place := by
  rw [Precedes, Decimal.lt_iff_place_lt second first, Decimal.lt_iff_place_lt first second, place,
    place, Prod.Lex.toLex_lt_toLex, Prod.Lex.toLex_lt_toLex, OrderDual.toDual_lt_toDual,
    OrderDual.toDual_inj]
  refine or_congr_right' fun lower => and_congr_left fun _ => ?_
  rw [not_lt, le_antisymm_iff, and_iff_right (not_lt.mp lower)]

/-- The first so many of some scores, listed as a ranking lists them: nobody comes up twice, each is
followed by those that it precedes, and it precedes all that are left out as well. -/
structure Score.Leads (listed scores : List (Score Float)) (count : Int) : Prop where
  length : (listed.length : Int) = min (max count 0) scores.length
  ids_nodup : (listed.map Score.id).Nodup
  entry : ∀ s ∈ listed, s.OnlyEntry scores
  precedes : listed.Pairwise Score.Precedes
  left : ∀ s ∈ scores, s ∉ listed → ∀ t ∈ listed, t.Precedes s

section

variable {scores others : List (Score Float)}

/-- The order of a ranking leaves no ties between different identities. -/
theorem ranked_precedes (numbers : ∀ s ∈ scores, s.value.isNaN = false)
    (nodup : (scores.map Score.id).Nodup) : (ranked scores).Pairwise Score.Precedes := by
  have perm : (ranked scores).Perm scores := List.mergeSort_perm _ _
  have sorted : (ranked scores).Pairwise fun a b =>
      a.place Decimal.place ≤ b.place Decimal.place := by
    rw [← List.pairwise_map (f := Score.place Decimal.place) (R := (· ≤ ·)),
      ranked_places fun s inS t inT => Decimal.le_iff_place_le (numbers s inS) (numbers t inT)]
    exact List.pairwise_mergeSort' (· ≤ ·) _
  have apart : (ranked scores).Pairwise fun a b => a.id ≠ b.id :=
    List.pairwise_map.mp ((perm.map Score.id).nodup_iff.mpr nodup)
  refine (sorted.and apart).imp_of_mem fun {a b} inA inB both => ?_
  have first := numbers a (perm.mem_iff.mp inA)
  have second := numbers b (perm.mem_iff.mp inB)
  refine (Score.precedes_iff first second).mpr (both.1.lt_of_ne fun same => both.2 ?_)
  exact congrArg (fun p => (ofLex (ofLex p).2).2) same

/-- Scores come into the same ranking, in whatever order they are given. -/
theorem ranked_eq_of_perm (numbers : ∀ s ∈ scores, s.value.isNaN = false)
    (nodup : (scores.map Score.id).Nodup) (same : scores.Perm others) :
    ranked scores = ranked others := by
  have perm : (ranked scores).Perm scores := List.mergeSort_perm _ _
  have perm' : (ranked others).Perm others := List.mergeSort_perm _ _
  have numbers' : ∀ s ∈ others, s.value.isNaN = false :=
    fun s member => numbers s (same.mem_iff.mpr member)
  have nodup' := (same.map Score.id).nodup_iff.mp nodup
  refine (perm.trans (same.trans perm'.symm)).eq_of_pairwise ?_ (ranked_precedes numbers nodup)
    (ranked_precedes numbers' nodup')
  intro a b inA inB before after
  have first := numbers a (perm.mem_iff.mp inA)
  have second := numbers' b (perm'.mem_iff.mp inB)
  rw [Score.precedes_iff first second] at before
  rw [Score.precedes_iff second first] at after
  exact absurd after before.not_gt

theorem take_ranked_leads (numbers : ∀ s ∈ scores, s.value.isNaN = false)
    (nodup : (scores.map Score.id).Nodup) (count : Int) :
    Score.Leads ((ranked scores).take count.toNat) scores count := by
  have perm : (ranked scores).Perm scores := List.mergeSort_perm _ _
  have order := ranked_precedes numbers nodup
  have kept : ((ranked scores).take count.toNat).Sublist (ranked scores) := List.take_sublist _ _
  refine ⟨?_, ?_, fun s member => ?_, order.sublist kept, fun s member absent t listed => ?_⟩
  · rw [List.length_take, perm.length_eq]
    omega
  · exact ((perm.map Score.id).nodup_iff.mpr nodup).sublist (kept.map Score.id)
  · exact .of_mem nodup (perm.mem_iff.mp (kept.subset member))
  · have place := perm.mem_iff.mpr member
    rw [← List.take_append_drop count.toNat (ranked scores)] at order place
    have dropped := (List.mem_append.mp place).resolve_left absent
    exact (List.pairwise_append.mp order).2.2 t listed s dropped

end

namespace Graph

variable {g g' : Graph}

/-- Two graphs that have their nodes and edges in different orders have the same scores. -/
theorem scores_perm {α : Type} [Add α] [Sub α] [Mul α] [NatCast α] (sound : g.Sound)
    (sound' : g'.Sound) (root : g.root = g'.root) (nodes : g.nodes.Perm g'.nodes)
    (edges : g.edges.Perm g'.edges) (w : Weights α) : (g.scores w).Perm (g'.scores w) := by
  have same : g.SameTopology g' :=
    ⟨root, ⟨sound.ids_nodup, sound'.ids_nodup⟩, nodes.map _, edges.map _⟩
  have scored : (fun n : Node => n.score w (g.standing n.id (levelOf g.rootLevels n.id))) =
      fun n => n.score w (g'.standing n.id (levelOf g'.rootLevels n.id)) := by
    funext n
    rw [same.levelOf_rootLevels_eq sound sound', same.standing_eq]
  rw [scores, scores, scored]
  exact nodes.map _

theorem Sound.perm_of_mem_iff (sound : g.Sound) (sound' : g'.Sound)
    (nodes : ∀ n, n ∈ g.nodes ↔ n ∈ g'.nodes) (edges : ∀ e, e ∈ g.edges ↔ e ∈ g'.edges) :
    g.nodes.Perm g'.nodes ∧ g.edges.Perm g'.edges :=
  ⟨(List.perm_ext_iff_of_nodup sound.ids_nodup.of_map sound'.ids_nodup.of_map).mpr nodes,
    (List.perm_ext_iff_of_nodup sound.keys_nodup.of_map sound'.keys_nodup.of_map).mpr edges⟩

/-- As long as all values are numbers, every ranking is canonical: it leads the scores of the nodes,
a shorter one is how a longer one begins, and the order in which nodes and edges came makes no
difference to it. -/
theorem top_canonical (reached : g.Reached) {w : Weights Float}
    (numbers : ∀ s ∈ g.scores w, s.value.isNaN = false) (count : Int) :
    (g.scores w).map Score.id = g.ids ∧ Score.Leads (g.top w count) (g.scores w) count ∧
      (∀ further, count ≤ further → g.top w count <+: g.top w further) ∧
      ∀ g' : Graph, g'.Reached → g.root = g'.root → (∀ n, n ∈ g.nodes ↔ n ∈ g'.nodes) →
        (∀ e, e ∈ g.edges ↔ e ∈ g'.edges) → g.top w count = g'.top w count := by
  have nodup : ((g.scores w).map Score.id).Nodup := by
    rw [scores_ids]
    exact reached.sound.ids_nodup
  refine ⟨scores_ids g w, take_ranked_leads numbers nodup count, fun further more => ?_, ?_⟩
  · exact List.take_prefix_take_left (by omega)
  · intro g' reached' root nodes edges
    obtain ⟨nodesPerm, edgesPerm⟩ := reached.sound.perm_of_mem_iff reached'.sound nodes edges
    have same := scores_perm reached.sound reached'.sound root nodesPerm edgesPerm w
    rw [top, top, ranked_eq_of_perm numbers nodup same]

/-- The ring once more, its nodes in the order of what they have received and its edges the other
way round. -/
def podium : Graph where
  root := "R"
  nodes := ["A", "R", "I", "B"].map fun id => Node.ofMention id "member" {}
  edges := [arc "I" "I" "4", arc "B" "A" "3", arc "A" "R" "2", arc "R" "A" "1"]

theorem podium_reached : podium.Reached := by
  have nodes := ((((Reached.empty "R" none "member").addNode "A" {}).addNode "R" {}).addNode "I"
    {}).addNode "B" {}
  have island := @Reached.addEdge _ _ (arc "I" "I" "4") true nodes rfl
  have behind := @Reached.addEdge _ _ (arc "B" "A" "3") true island rfl
  have back := @Reached.addEdge _ _ (arc "A" "R" "2") true behind rfl
  exact @Reached.addEdge _ _ (arc "R" "A" "1") true back rfl

/-- Weights that count nothing but the credentials received. -/
def plain : Weights Float := ⟨1, 0, 0, 0, 0⟩

/-- The root and the island have received one credential each, and the island comes after the root
since it cannot be reached. -/
theorem top_canonical_ring :
    ring.Reached ∧ (∀ s ∈ ring.scores plain, s.value.isNaN = false) ∧
      ring.top plain 3 = podium.top plain 3 ∧
      (ring.top plain 3).map Score.id = ["A", "R", "I"] ∧ ring.top plain 2 <+: ring.top plain 3 := by
  have levels : ring.rootLevels = [["R"], ["A"], ["B"]] := by cbv
  have levels' : podium.rootLevels = [["R"], ["A"], ["B"]] := by cbv
  have numbers : ∀ s ∈ ring.scores plain, s.value.isNaN = false := by
    rw [scores, levels]
    decide +kernel
  have sorted : ranked (podium.scores plain) = podium.scores plain := by
    refine List.mergeSort_of_pairwise ?_
    rw [scores, levels']
    decide +kernel
  have nodes : ring.nodes.Perm podium.nodes := by decide
  have edges : ring.edges.Perm podium.edges := by decide
  obtain ⟨_, _, _, canonical⟩ := top_canonical ring_reached numbers 3
  obtain ⟨_, _, longer, _⟩ := top_canonical ring_reached numbers 2
  have same := canonical podium podium_reached rfl (fun _ => nodes.mem_iff) fun _ => edges.mem_iff
  refine ⟨ring_reached, numbers, same, ?_, longer 3 (by decide)⟩
  rw [same, top, sorted]
  rfl

end Graph

end Vouch
