import Vouch.Proofs.Score.Average
import Vouch.Proofs.Score.Canonical

namespace Vouch

theorem Score.Precedes.value_le {a b : Score Float} (before : a.Precedes b)
    (first : a.value.isNaN = false) (second : b.value.isNaN = false) :
    Decimal.place b.value ≤ Decimal.place a.value := by
  rcases before with higher | ⟨tied, _⟩
  · exact ((Decimal.lt_iff_place_lt second first).mp higher).le
  · exact not_lt.mp ((Decimal.lt_iff_place_lt first second).not.mp tied)

/-- What is first in a list and bears a relation to all that comes after it bears it to all. -/
theorem exists_head?_of_pairwise {α : Type} {r : α → α → Prop} {xs : List α}
    (order : xs.Pairwise r) (refl : ∀ x, r x x) (some : xs ≠ []) :
    ∃ first, xs.head? = Option.some first ∧ first ∈ xs ∧ ∀ x ∈ xs, r first x := by
  cases xs with
  | nil => exact absurd rfl some
  | cons first xs =>
    refine ⟨first, rfl, List.mem_cons_self, fun x member => ?_⟩
    rcases List.mem_cons.mp member with rfl | later
    · exact refl x
    · exact (List.pairwise_cons.mp order).1 x later

theorem exists_getLast?_of_pairwise {α : Type} {r : α → α → Prop} {xs : List α}
    (order : xs.Pairwise r) (refl : ∀ x, r x x) (some : xs ≠ []) :
    ∃ last, xs.getLast? = Option.some last ∧ last ∈ xs ∧ ∀ x ∈ xs, r x last := by
  have backwards := List.pairwise_reverse.mpr order
  obtain ⟨last, found, member, bound⟩ :=
    exists_head?_of_pairwise backwards refl (List.reverse_ne_nil_iff.mpr some)
  rw [List.head?_reverse] at found
  exact ⟨last, found, List.mem_reverse.mp member, fun x inside =>
    bound x (List.mem_reverse.mpr inside)⟩

section

variable {scores : List (Score Float)}

/-- No value in a ranking is lower than one after it. -/
theorem ranked_values (numbers : ∀ s ∈ scores, s.value.isNaN = false)
    (nodup : (scores.map Score.id).Nodup) :
    (ranked scores).Pairwise fun a b => Decimal.place b.value ≤ Decimal.place a.value := by
  have perm : (ranked scores).Perm scores := List.mergeSort_perm _ _
  refine (ranked_precedes numbers nodup).imp_of_mem fun inA inB before => ?_
  exact before.value_le (numbers _ (perm.mem_iff.mp inA)) (numbers _ (perm.mem_iff.mp inB))

theorem value_le_iff (numbers : ∀ s ∈ scores, s.value.isNaN = false) :
    ∀ a ∈ scores.map Score.value, ∀ b ∈ scores.map Score.value,
      a ≤ b ↔ Decimal.place a ≤ Decimal.place b := by
  simp only [List.forall_mem_map]
  exact fun s inS t inT => Decimal.le_iff_place_le (numbers s inS) (numbers t inT)

theorem beq_value {x : Float} {s : Score Float} (numbers : ∀ s ∈ scores, s.value.isNaN = false)
    (inside : x ∈ scores.map Score.value) (member : s ∈ scores)
    (same : Decimal.place x = Decimal.place s.value) : (x == s.value) = true := by
  have all : ∀ x ∈ scores.map Score.value, x.isNaN = false := List.forall_mem_map.mpr numbers
  exact (Decimal.beq_iff_place_eq (all x inside) (numbers s member)).mpr same

theorem ranked_ne_nil (some : scores ≠ []) : ranked scores ≠ [] := by
  have perm : (ranked scores).Perm scores := List.mergeSort_perm _ _
  exact fun empty => some (List.perm_nil.mp (empty ▸ perm.symm))

/-- The first of a ranking has the greatest value. -/
theorem ranked_head? (numbers : ∀ s ∈ scores, s.value.isNaN = false)
    (nodup : (scores.map Score.id).Nodup) (some : scores ≠ []) :
    ∃ first, (ranked scores).head? = Option.some first ∧
      (greatest (scores.map Score.value) == first.value) = true := by
  have perm : (ranked scores).Perm scores := List.mergeSort_perm _ _
  obtain ⟨first, found, inside, top⟩ :=
    exists_head?_of_pairwise (ranked_values numbers nodup) (fun _ => le_rfl) (ranked_ne_nil some)
  obtain ⟨high, above⟩ :=
    greatest_spec Decimal.place (value_le_iff numbers) (List.map_eq_nil_iff.not.mpr some)
  have member := perm.mem_iff.mp inside
  have bound : ∀ x ∈ scores.map Score.value, Decimal.place x ≤ Decimal.place first.value :=
    List.forall_mem_map.mpr fun s other => top s (perm.mem_iff.mpr other)
  have same := (bound _ high).antisymm (above _ (List.mem_map_of_mem member))
  exact ⟨first, found, beq_value numbers high member same⟩

/-- The last of a ranking has the least value. -/
theorem ranked_getLast? (numbers : ∀ s ∈ scores, s.value.isNaN = false)
    (nodup : (scores.map Score.id).Nodup) (some : scores ≠ []) :
    ∃ last, (ranked scores).getLast? = Option.some last ∧
      (least (scores.map Score.value) == last.value) = true := by
  have perm : (ranked scores).Perm scores := List.mergeSort_perm _ _
  obtain ⟨last, found, inside, bottom⟩ :=
    exists_getLast?_of_pairwise (ranked_values numbers nodup) (fun _ => le_rfl)
      (ranked_ne_nil some)
  obtain ⟨low, below⟩ :=
    least_spec Decimal.place (value_le_iff numbers) (List.map_eq_nil_iff.not.mpr some)
  have member := perm.mem_iff.mp inside
  have bound : ∀ x ∈ scores.map Score.value, Decimal.place last.value ≤ Decimal.place x :=
    List.forall_mem_map.mpr fun s other => bottom s (perm.mem_iff.mpr other)
  have same := (below _ (List.mem_map_of_mem member)).antisymm (bound _ low)
  exact ⟨last, found, beq_value numbers low member same⟩

end

namespace Graph

variable {g : Graph}

/-- The distances of all nodes that can be reached from the root. -/
def reachedDepths (g : Graph) : List Nat :=
  g.depths.filterMap Prod.snd

/-- The root has the distance that its standing has anyway. -/
theorem standing_levelOf (sound : g.Sound) {id : String} (known : id ∈ g.ids) :
    (g.standing id (levelOf g.rootLevels id)).depth = levelOf g.rootLevels id := by
  by_cases same : id = g.root
  · subst same
    have least : g.IsDistance g.root g.root 0 := isDistance_iff.mpr ⟨.here _, fun _ => by omega⟩
    rw [(levelOf_rootLevels sound).mpr ⟨known, least⟩, standing, if_pos rfl]
  · rw [standing, if_neg same]

theorem scores_filterMap_depth {α : Type} [Add α] [Sub α] [Mul α] [NatCast α] (sound : g.Sound)
    (w : Weights α) :
    (g.scores w).filterMap (·.standing.depth) = g.reachedDepths := by
  rw [scores, reachedDepths, depths, ids, List.map_map, List.filterMap_map, List.filterMap_map]
  refine List.filterMap_congr fun n member => ?_
  exact standing_levelOf sound (List.mem_map_of_mem member)

section

variable {α : Type} [Add α] [Sub α] [Mul α] [Div α] [NatCast α] [LE α] [DecidableLE α]

theorem isLone_eq_false_iff : g.isLone = false ↔ ∃ id ∈ g.ids, id ≠ g.root := by
  simp [isLone, ids]

theorem summary_of_others (sound : g.Sound) (others : ∃ id ∈ g.ids, id ≠ g.root)
    (w : Weights α) :
    g.summary w = {
      nodes := g.nodes.length
      edges := g.edges.length
      average := mean ((g.scores w).map Score.value)
      highest := greatest ((g.scores w).map Score.value)
      lowest := least ((g.scores w).map Score.value)
      medianDepth := median g.reachedDepths
      reciprocal := g.reciprocalCount } := by
  rw [summary, isLone_eq_false_iff.mpr others, ← scores_filterMap_depth sound w]
  rfl

theorem summary_of_lone (alone : ∀ id ∈ g.ids, id = g.root) (w : Weights α) :
    g.summary w = {
      nodes := g.nodes.length
      edges := g.edges.length
      average := ((0 : Nat) : α)
      highest := ((0 : Nat) : α)
      lowest := ((0 : Nat) : α)
      medianDepth := ((0 : Nat) : α)
      reciprocal := g.reciprocalCount } := by
  have lone : g.isLone = true := by simpa [isLone, ids] using alone
  rw [summary, lone]
  rfl

end

theorem scores_ne_nil {α : Type} [Add α] [Sub α] [Mul α] [NatCast α] {id : String}
    (known : id ∈ g.ids) (w : Weights α) : g.scores w ≠ [] := by
  intro empty
  rw [← scores_ids g w, empty] at known
  exact List.not_mem_nil known

/-- The greatest and the least value are those at the ends of the rankings. -/
theorem summary_ends (sound : g.Sound) (others : ∃ id ∈ g.ids, id ≠ g.root) {w : Weights Float}
    (numbers : ∀ s ∈ g.scores w, s.value.isNaN = false) :
    (∀ count, 1 ≤ count → ∃ first, (g.top w count).head? = some first ∧
      ((g.summary w).highest == first.value) = true) ∧
    ∃ last, (g.top w g.nodes.length).getLast? = some last ∧
      ((g.summary w).lowest == last.value) = true := by
  obtain ⟨id, known, _⟩ := id others
  have nodup : ((g.scores w).map Score.id).Nodup := by
    rw [scores_ids]
    exact sound.ids_nodup
  obtain ⟨first, isFirst, highest⟩ := ranked_head? numbers nodup (scores_ne_nil known w)
  obtain ⟨last, isLast, lowest⟩ := ranked_getLast? numbers nodup (scores_ne_nil known w)
  rw [summary_of_others sound others]
  refine ⟨fun count positive => ⟨first, ?_, highest⟩, last, ?_, lowest⟩
  · rw [top, List.head?_take, if_neg (by omega), isFirst]
  · have whole : (ranked (g.scores w)).length ≤ ((g.nodes.length : Int)).toNat := by
      rw [ranked, List.length_mergeSort, scores, List.length_map, Int.toNat_natCast]
    rw [top, List.take_of_length_le whole, isLast]

/-- Without rounding the average is the mean of all values and lies between their extremes. -/
theorem summary_average (sound : g.Sound) (others : ∃ id ∈ g.ids, id ≠ g.root) (w : Weights ℚ) :
    (g.summary w).average * (g.summary w).nodes = ((g.scores w).map Score.value).sum ∧
      (g.summary w).lowest ≤ (g.summary w).average ∧
      (g.summary w).average ≤ (g.summary w).highest := by
  obtain ⟨id, known, _⟩ := id others
  have values : (g.scores w).map Score.value ≠ [] :=
    List.map_eq_nil_iff.not.mpr (scores_ne_nil known w)
  have length : g.nodes.length = ((g.scores w).map Score.value).length := by
    rw [List.length_map, scores, List.length_map]
  rw [summary_of_others sound others]
  dsimp only
  rw [length, mean_mul_length]
  exact ⟨rfl, least_le_mean_le_greatest values⟩

/-- The median is zero if nothing is within reach, and else half of a number that halves the
distances. -/
theorem summary_median {α : Type} [Add α] [Sub α] [Mul α] [Div α] [NatCast α] [LE α]
    [DecidableLE α] (sound : g.Sound) (others : ∃ id ∈ g.ids, id ≠ g.root) (w : Weights α) :
    (g.reachedDepths = [] → (g.summary w).medianDepth = ((0 : Nat) : α)) ∧
      (g.reachedDepths ≠ [] → ∃ twice, Halves twice g.reachedDepths ∧
        (g.summary w).medianDepth = (twice : α) / ((2 : Nat) : α)) := by
  rw [summary_of_others sound others]
  refine ⟨fun none => ?_, exists_halves⟩
  dsimp only
  rw [none, median, List.mergeSort_nil]
  rfl

/-- The summary of a graph with somebody besides the root agrees with its rankings and with the
distances. Greatest and least value stand at the ends of a ranking, if all values are numbers, and
are equal to those as numbers. Without rounding the average is the mean of all values and lies
between them. The median is zero if nothing is within reach, and else no less and no more than half of the
distances. In a graph with nobody besides the root all this is zero, and only counts remain. -/
theorem summary_agrees :
    (∀ g : Graph, g.Reached → (∃ id ∈ g.ids, id ≠ g.root) →
      (∀ w : Weights Float,
        ((∀ s ∈ g.scores w, s.value.isNaN = false) →
          (∀ count, 1 ≤ count → ∃ first, (g.top w count).head? = some first ∧
            ((g.summary w).highest == first.value) = true) ∧
          ∃ last, (g.top w g.nodes.length).getLast? = some last ∧
            ((g.summary w).lowest == last.value) = true) ∧
        (g.reachedDepths = [] → (g.summary w).medianDepth = 0) ∧
        (g.reachedDepths ≠ [] → ∃ twice, Halves twice g.reachedDepths ∧
          (g.summary w).medianDepth = Float.ofNat twice / 2)) ∧
      ∀ w : Weights ℚ,
        (g.summary w).average * (g.summary w).nodes = ((g.scores w).map Score.value).sum ∧
        (g.summary w).lowest ≤ (g.summary w).average ∧
        (g.summary w).average ≤ (g.summary w).highest ∧
        (g.reachedDepths = [] → (g.summary w).medianDepth = 0) ∧
        g.reachedDepths.length ≤
          2 * g.reachedDepths.countP (fun d : Nat => (d : ℚ) ≤ (g.summary w).medianDepth) ∧
        g.reachedDepths.length ≤
          2 * g.reachedDepths.countP fun d : Nat => (g.summary w).medianDepth ≤ (d : ℚ)) ∧
    ∀ g : Graph, (∀ id ∈ g.ids, id = g.root) → ∀ w : Weights Float,
      g.summary w =
        ⟨g.nodes.length, g.edges.length, 0, 0, 0, 0, g.edges.countP Edge.reciprocal⟩ := by
  refine ⟨fun g reached others => ⟨fun w => ⟨?_, ?_⟩, fun w => ?_⟩, fun g alone w => ?_⟩
  · exact fun numbers => summary_ends reached.sound others numbers
  · exact summary_median reached.sound others w
  · obtain ⟨exact', bounded⟩ := summary_average reached.sound others w
    obtain ⟨none, halved⟩ := summary_median reached.sound others w
    refine ⟨exact', bounded.1, bounded.2, fun empty => ?_, ?_⟩
    · rw [none empty, Nat.cast_zero]
    · by_cases empty : g.reachedDepths = []
      · simp [empty]
      · obtain ⟨twice, halves, middle⟩ := halved empty
        rw [middle, Nat.cast_ofNat]
        exact halves.countP_rat
  · rw [summary_of_lone alone]
    rfl

/-- The root on its own, with a credential that it gave to itself. -/
def loner : Graph where
  root := "R"
  nodes := [Node.ofMention "R" "member" {}]
  edges := [arc "R" "R" "1"]

theorem summary_agrees_ring :
    ring.Reached ∧ ring.reachedDepths = [0, 1, 2] ∧
      (∀ s ∈ ring.scores plain, s.value.isNaN = false) ∧
      (∃ first, (ring.top plain 2).head? = some first ∧
        ((ring.summary plain).highest == first.value) = true) ∧
      (∃ twice, Halves twice [0, 1, 2] ∧
        (ring.summary plain).medianDepth = Float.ofNat twice / 2) ∧
      (ring.summary (⟨1, 0, 0, 0, 0⟩ : Weights ℚ)).average * 4 = 4 ∧
      loner.summary plain = ⟨1, 1, 0, 0, 0, 0, 0⟩ := by
  obtain ⟨agrees, alone⟩ := summary_agrees
  obtain ⟨double, exact'⟩ := agrees ring ring_reached ⟨"A", by decide, by decide⟩
  have levels : ring.rootLevels = [["R"], ["A"], ["B"]] := by cbv
  have depths : ring.reachedDepths = [0, 1, 2] := by
    rw [reachedDepths, Graph.depths, levels]
    decide +kernel
  have numbers : ∀ s ∈ ring.scores plain, s.value.isNaN = false := by
    rw [scores, levels]
    decide +kernel
  have sum : ((ring.scores (⟨1, 0, 0, 0, 0⟩ : Weights ℚ)).map Score.value).sum = 4 := by
    rw [scores, levels]
    decide +kernel
  obtain ⟨ends, _, halved⟩ := double plain
  obtain ⟨average, _⟩ := exact' ⟨1, 0, 0, 0, 0⟩
  rw [sum] at average
  rw [depths] at halved
  exact ⟨ring_reached, depths, numbers, (ends numbers).1 2 (by decide), halved (by decide), average,
    alone loner (by decide) plain⟩

end Graph

end Vouch
