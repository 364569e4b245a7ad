import Mathlib
import Vouch.Score.Summary

namespace Vouch

theorem sumInOrder_eq (xs : List ℚ) : sumInOrder xs = xs.sum := by
  cases xs with
  | nil => exact Nat.cast_zero
  | cons x xs => rw [sumInOrder, List.sum_eq_foldl, List.foldl_cons, zero_add]

theorem sumByEights_eq {sums xs : List ℚ} (eight : sums.length = 8) :
    sumByEights sums xs = sums.sum + xs.sum := by
  induction sums, xs using sumByEights.induct with
  | case1 xs short a b c d e f g h =>
    rw [sumByEights.eq_def, if_pos short]
    simp only [sumInOrder_eq, List.sum_cons, List.sum_nil]
    ring
  | case2 sums xs short other =>
    rw [sumByEights.eq_def, if_pos short]
    split
    · exact (other _ _ _ _ _ _ _ _ rfl).elim
    · rw [sumInOrder_eq, List.sum_append]
  | case3 sums xs long ih =>
    have first : sums.length = (xs.take 8).length := by
      rw [List.length_take]
      omega
    have next : (List.zipWith (· + ·) sums (xs.take 8)).length = 8 := by
      rw [List.length_zipWith, ← first, eight, min_self]
    rw [sumByEights.eq_def, if_neg long, ih next,
      ← List.sum_add_sum_eq_sum_zipWith_of_length_eq _ _ first, add_assoc,
      List.sum_take_add_sum_drop]

/-- Whatever the order in which numbers are added, without rounding it is their sum. -/
theorem sumInPairs_eq (xs : List ℚ) : sumInPairs xs = xs.sum := by
  induction xs using sumInPairs.induct with
  | case1 xs short => rw [sumInPairs, if_pos short, sumInOrder_eq]
  | case2 xs long bounded =>
    have eight : (xs.take 8).length = 8 := by
      rw [List.length_take]
      omega
    rw [sumInPairs, if_neg long, dif_pos bounded, sumByEights_eq eight, List.sum_take_add_sum_drop]
  | case3 xs long further half front back =>
    rw [sumInPairs, if_neg long, dif_neg further]
    exact (congrArg₂ (· + ·) front back).trans (List.sum_take_add_sum_drop xs half)

theorem mean_mul_length (xs : List ℚ) : mean xs * xs.length = xs.sum := by
  rw [mean, sumInPairs_eq, Nat.cast_zero, zero_add]
  cases xs with
  | nil => simp
  | cons x xs =>
    have positive : ((x :: xs).length : ℚ) ≠ 0 := Nat.cast_ne_zero.mpr (Nat.succ_ne_zero _)
    exact div_mul_cancel₀ _ positive

section

variable {α κ : Type} [LinearOrder κ]

/-- Going through a list and keeping what stands up to the next one ends with one of the list that
stands up to all of it. -/
theorem foldl_keep {keep : α → α → Prop} [DecidableRel keep] {line : α → κ} {xs ys : List α}
    (faithful : ∀ a ∈ xs, ∀ b ∈ xs, keep a b ↔ line b ≤ line a) {x : α} (start : x ∈ xs)
    (inside : ys ⊆ xs) :
    ys.foldl (fun best y => if keep best y then best else y) x ∈ xs ∧ ∀ y ∈ x :: ys,
      line y ≤ line (ys.foldl (fun best y => if keep best y then best else y) x) := by
  induction ys generalizing x with
  | nil => simpa using start
  | cons y ys ih =>
    obtain ⟨next, rest⟩ := List.cons_subset.mp inside
    rw [List.foldl_cons]
    by_cases kept : keep x y
    · rw [if_pos kept]
      obtain ⟨member, bound⟩ := ih start rest
      refine ⟨member, List.forall_mem_cons.mpr ⟨bound x List.mem_cons_self, ?_⟩⟩
      refine List.forall_mem_cons.mpr ⟨?_, fun z later => bound z (List.mem_cons_of_mem _ later)⟩
      exact ((faithful x start y next).mp kept).trans (bound x List.mem_cons_self)
    · rw [if_neg kept]
      obtain ⟨member, bound⟩ := ih next rest
      have lower := lt_of_not_ge ((faithful x start y next).not.mp kept)
      exact ⟨member, List.forall_mem_cons.mpr
        ⟨lower.le.trans (bound y List.mem_cons_self), bound⟩⟩

variable [LE α] [DecidableLE α] [NatCast α] {xs : List α}

theorem greatest_spec (line : α → κ)
    (faithful : ∀ a ∈ xs, ∀ b ∈ xs, a ≤ b ↔ line a ≤ line b) (some : xs ≠ []) :
    greatest xs ∈ xs ∧ ∀ x ∈ xs, line x ≤ line (greatest xs) := by
  cases xs with
  | nil => exact absurd rfl some
  | cons x xs =>
    refine foldl_keep (fun a inA b inB => ?_) List.mem_cons_self (List.subset_cons_self x xs)
    rw [faithful b inB a inA, faithful a inA a inA]
    simp

theorem least_spec (line : α → κ)
    (faithful : ∀ a ∈ xs, ∀ b ∈ xs, a ≤ b ↔ line a ≤ line b) (some : xs ≠ []) :
    least xs ∈ xs ∧ ∀ x ∈ xs, line (least xs) ≤ line x := by
  cases xs with
  | nil => exact absurd rfl some
  | cons x xs =>
    have down := @foldl_keep α κᵒᵈ _ (fun best y => best ≤ y ∨ ¬ best ≤ best) _
      (fun a => OrderDual.toDual (line a)) (x :: xs) xs
    refine down (fun a inA b inB => ?_) List.mem_cons_self (List.subset_cons_self x xs)
    rw [faithful a inA b inB, faithful a inA a inA, OrderDual.toDual_le_toDual]
    simp

end

theorem least_le_mean_le_greatest {xs : List ℚ} (some : xs ≠ []) :
    least xs ≤ mean xs ∧ mean xs ≤ greatest xs := by
  have positive : 0 < (xs.length : ℚ) := Nat.cast_pos.mpr (List.length_pos_iff.mpr some)
  have low := List.card_nsmul_le_sum xs _ (least_spec id (fun _ _ _ _ => Iff.rfl) some).2
  have high := List.sum_le_card_nsmul xs _ (greatest_spec id (fun _ _ _ _ => Iff.rfl) some).2
  rw [nsmul_eq_mul, ← mean_mul_length, mul_comm (mean xs)] at low high
  exact ⟨le_of_mul_le_mul_left low positive, le_of_mul_le_mul_left high positive⟩

/-- At least half of some distances come to no more than half of a number, and at least half of them
to no less. -/
def Halves (twice : Nat) (depths : List Nat) : Prop :=
  depths.length ≤ 2 * depths.countP (2 * · ≤ twice) ∧
    depths.length ≤ 2 * depths.countP (twice ≤ 2 * ·)

theorem countP_le_getElem {xs : List Nat} (sorted : xs.Pairwise (· ≤ ·)) {i : Nat}
    (inside : i < xs.length) : i < xs.countP (· ≤ xs[i]) := by
  have first : ∀ x ∈ xs.take (i + 1), decide (x ≤ xs[i]) = true := by
    intro x member
    obtain ⟨j, bound, rfl⟩ := List.getElem_of_mem member
    rw [List.length_take] at bound
    rw [List.getElem_take, decide_eq_true_eq]
    have before : j ≤ i := by omega
    exact sorted.rel_get_of_le (a := ⟨j, by omega⟩) (b := ⟨i, inside⟩) before
  have fewer := (List.take_sublist (i + 1) xs).countP_le (p := (· ≤ xs[i]))
  rw [List.countP_eq_length.mpr first, List.length_take] at fewer
  omega

theorem countP_getElem_le {xs : List Nat} (sorted : xs.Pairwise (· ≤ ·)) {i : Nat}
    (inside : i < xs.length) : xs.length - i ≤ xs.countP (xs[i] ≤ ·) := by
  have last : ∀ x ∈ xs.drop i, decide (xs[i] ≤ x) = true := by
    intro x member
    obtain ⟨j, bound, rfl⟩ := List.getElem_of_mem member
    rw [List.length_drop] at bound
    rw [List.getElem_drop, decide_eq_true_eq]
    exact sorted.rel_get_of_le (a := ⟨i, inside⟩) (b := ⟨i + j, by omega⟩) (Nat.le_add_right i j)
  have fewer := (List.drop_sublist i xs).countP_le (p := (xs[i] ≤ ·))
  rw [List.countP_eq_length.mpr last, List.length_drop] at fewer
  exact fewer

theorem Halves.perm {twice : Nat} {depths others : List Nat} (halves : Halves twice depths)
    (same : depths.Perm others) : Halves twice others := by
  rw [Halves, same.length_eq, same.countP_eq, same.countP_eq] at halves
  exact halves

/-- The two places in the middle of sorted distances are far enough from both ends. -/
theorem halves_middle {sorted : List Nat} {size low high : Nat}
    (order : sorted.Pairwise (· ≤ ·)) (length : sorted.length = size)
    (atLow : sorted[(size - 1) / 2]? = some low) (atHigh : sorted[size / 2]? = some high) :
    Halves (low + high) sorted := by
  subst length
  obtain ⟨insideLow, rfl⟩ := List.getElem?_eq_some_iff.mp atLow
  obtain ⟨insideHigh, rfl⟩ := List.getElem?_eq_some_iff.mp atHigh
  have places : (sorted.length - 1) / 2 ≤ sorted.length / 2 := by omega
  have less : sorted[(sorted.length - 1) / 2] ≤ sorted[sorted.length / 2] :=
    order.rel_get_of_le (a := ⟨_, insideLow⟩) (b := ⟨_, insideHigh⟩) places
  have below := countP_le_getElem order insideLow
  have above := countP_getElem_le order insideHigh
  have wider : sorted.countP (· ≤ sorted[(sorted.length - 1) / 2]) ≤
      sorted.countP (2 * · ≤ sorted[(sorted.length - 1) / 2] + sorted[sorted.length / 2]) :=
    List.countP_mono_left fun x _ => by simp only [decide_eq_true_eq]; omega
  have wider' : sorted.countP (sorted[sorted.length / 2] ≤ ·) ≤
      sorted.countP (sorted[(sorted.length - 1) / 2] + sorted[sorted.length / 2] ≤ 2 * ·) :=
    List.countP_mono_left fun x _ => by simp only [decide_eq_true_eq]; omega
  constructor <;> omega

theorem exists_halves {α : Type} [Add α] [Div α] [NatCast α] {depths : List Nat}
    (some : depths ≠ []) :
    ∃ twice, Halves twice depths ∧ (median depths : α) = (twice : α) / ((2 : Nat) : α) := by
  have perm : (depths.mergeSort fun a b => a ≤ b).Perm depths := List.mergeSort_perm _ _
  have order : (depths.mergeSort fun a b => a ≤ b).Pairwise (· ≤ ·) :=
    List.pairwise_mergeSort' (· ≤ ·) depths
  have length := perm.length_eq
  have positive := List.length_pos_iff.mpr some
  have inside : ∀ i < depths.length, ∃ d, (depths.mergeSort fun a b => a ≤ b)[i]? = Option.some d :=
    fun i bound => ⟨_, List.getElem?_eq_getElem (length ▸ bound)⟩
  obtain ⟨low, atLow⟩ := inside ((depths.length - 1) / 2) (by omega)
  obtain ⟨high, atHigh⟩ := inside (depths.length / 2) (by omega)
  refine ⟨low + high, (halves_middle order length atLow atHigh).perm perm, ?_⟩
  rw [median, atLow, atHigh]

theorem Halves.countP_rat {twice : Nat} {depths : List Nat} (halves : Halves twice depths) :
    depths.length ≤ 2 * depths.countP (fun d : Nat => (d : ℚ) ≤ twice / 2) ∧
      depths.length ≤ 2 * depths.countP fun d : Nat => (twice / 2 : ℚ) ≤ d := by
  have below : ∀ d : Nat, (d : ℚ) ≤ twice / 2 ↔ 2 * d ≤ twice := fun d => by
    rw [le_div_iff₀ two_pos, mul_comm]
    exact_mod_cast Iff.rfl
  have above : ∀ d : Nat, (twice / 2 : ℚ) ≤ d ↔ twice ≤ 2 * d := fun d => by
    rw [div_le_iff₀ two_pos, mul_comm]
    exact_mod_cast Iff.rfl
  simp only [below, above]
  exact halves

end Vouch
