import Vouch.Proofs.Decimal.Order
import Vouch.Score.Ranking

namespace Vouch

/-- A distance in the line of distances. What cannot be reached is further away than all else. -/
def reach (depth : Option Nat) : WithTop Nat := depth.elim ⊤ WithTop.some

theorem isNearer_iff {a b : Option Nat} : isNearer a b = true ↔ reach a < reach b := by
  cases a <;> cases b <;> simp [isNearer, reach]

section

variable {α κ : Type} [LE α] [DecidableLE α] [LinearOrder κ]

/-- The place of a score in a ranking, once values stand in a line: the higher value first, then
the nearer to the root, then the lesser identifier. -/
def Score.place (line : α → κ) (s : Score α) : κᵒᵈ ×ₗ WithTop Nat ×ₗ String :=
  toLex (OrderDual.toDual (line s.value), toLex (reach s.standing.depth, s.id))

theorem Score.outranks_iff {line : α → κ} {a b : Score α}
    (below : a.value ≤ b.value ↔ line a.value ≤ line b.value)
    (above : b.value ≤ a.value ↔ line b.value ≤ line a.value) :
    a.outranks b = true ↔ a.place line < b.place line := by
  rw [place, place, Prod.Lex.toLex_lt_toLex, Prod.Lex.toLex_lt_toLex, OrderDual.toDual_lt_toDual]
  unfold outranks
  rcases lt_trichotomy (line b.value) (line a.value) with higher | same | lower
  · simp [below.not.mpr higher.not_ge, higher]
  · simp only [below.mpr same.ge, above.mpr same.le, same, not_true_eq_false, if_false,
      lt_irrefl, false_or, true_and]
    rcases lt_trichotomy (reach a.standing.depth) (reach b.standing.depth) with near | tied | far
    · simp [isNearer_iff.mpr near, near]
    · simp [isNearer_iff, tied]
    · simp [isNearer_iff, far, far.not_gt, far.ne']
  · simp [below.mpr lower.le, above.not.mpr lower.not_ge, lower.not_gt, lower.ne]

theorem ranked_places {line : α → κ} {scores : List (Score α)}
    (faithful : ∀ s ∈ scores, ∀ t ∈ scores, s.value ≤ t.value ↔ line s.value ≤ line t.value) :
    (ranked scores).map (Score.place line) =
      (scores.map (Score.place line)).mergeSort (· ≤ ·) := by
  refine List.map_mergeSort fun a inA b inB => ?_
  have order := Score.outranks_iff (faithful b inB a inA) (faithful a inA b inB)
  rw [Bool.eq_iff_iff, decide_eq_true_eq, Bool.not_eq_true', ← Bool.not_eq_true, order, not_lt]

/-- Scores at the same places have the same ranking, in whatever order they come. -/
theorem ranked_ids_eq (line : α → κ) {scores others : List (Score α)}
    (faithful : ∀ s t, s ∈ scores ∨ s ∈ others → t ∈ scores ∨ t ∈ others →
      (s.value ≤ t.value ↔ line s.value ≤ line t.value))
    (same : (scores.map (Score.place line)).Perm (others.map (Score.place line))) :
    (ranked scores).map Score.id = (ranked others).map Score.id := by
  have places : (ranked scores).map (Score.place line) =
      (ranked others).map (Score.place line) := by
    rw [ranked_places fun s inS t inT => faithful s t (Or.inl inS) (Or.inl inT),
      ranked_places fun s inS t inT => faithful s t (Or.inr inS) (Or.inr inT)]
    have sorted := fun places : List (κᵒᵈ ×ₗ WithTop Nat ×ₗ String) =>
      List.pairwise_mergeSort' (· ≤ ·) places
    refine List.Perm.eq_of_pairwise' (sorted _) (sorted _) ?_
    exact (List.mergeSort_perm _ _).trans (same.trans (List.mergeSort_perm _ _).symm)
  have ids : ∀ scores : List (Score α), scores.map Score.id =
      (scores.map (Score.place line)).map fun p => (ofLex (ofLex p).2).2 := by
    intro scores
    rw [List.map_map]
    rfl
  rw [ids, ids, places]

end

end Vouch
