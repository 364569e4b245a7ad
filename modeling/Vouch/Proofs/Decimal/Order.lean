import Mathlib

namespace Vouch.Decimal

open Float.Model (UnpackedFloat)
open Float.Model.UnpackedFloat

/-- Where a double stands among the others: its class, from negative to positive infinity, and in
the two finite classes exponent and mantissa. -/
def placeOf : UnpackedFloat → Int ×ₗ Int ×ₗ Int
  | .infinity .negative => toLex (-2, toLex (0, 0))
  | .finite .negative mantissa exponent _ => toLex (-1, toLex (-exponent, -(mantissa : Int)))
  | .zero _ => toLex (0, toLex (0, 0))
  | .finite .positive mantissa exponent _ => toLex (1, toLex (exponent, (mantissa : Int)))
  | .infinity .positive => toLex (2, toLex (0, 0))
  | .notANumber => toLex (3, toLex (0, 0))

theorem isLE_then_iff {e₁ e₂ : Int} {m₁ m₂ : Nat} :
    ((compare e₁ e₂).then (compare m₁ m₂)).isLE = true ↔ e₁ < e₂ ∨ e₁ = e₂ ∧ m₁ ≤ m₂ := by
  rcases Int.lt_trichotomy e₁ e₂ with less | same | greater
  · simp [Int.compare_eq_lt.mpr less, less]
  · subst same
    simp [Nat.isLE_compare]
  · have apart : ¬ e₁ < e₂ ∧ e₁ ≠ e₂ := by omega
    simp [Int.compare_eq_gt.mpr greater, apart]

theorem finite_le_iff {s t : Sign} {m n : Nat} {e f : Int} {hm : 0 < m} {hn : 0 < n} :
    (UnpackedFloat.finite s m e hm).le (.finite t n f hn) = true ↔
      placeOf (.finite s m e hm) ≤ placeOf (.finite t n f hn) := by
  cases s <;> cases t
  case negative.negative =>
    have order : f < e ∨ f = e ∧ n ≤ m ↔
        -e < -f ∨ -e = -f ∧ -(m : Int) ≤ -(n : Int) := by omega
    simp only [UnpackedFloat.le, UnpackedFloat.compare, placeOf, Prod.Lex.toLex_le_toLex,
      Ordering.swap_then, Int.compare_swap, Nat.compare_swap, Option.any_some, isLE_then_iff,
      order]
    simp
  all_goals
    simp [UnpackedFloat.le, UnpackedFloat.compare, placeOf, Prod.Lex.toLex_le_toLex, isLE_then_iff]

theorem unpacked_le_iff {a b : UnpackedFloat} (first : a.isNaN = false)
    (second : b.isNaN = false) : a.le b = true ↔ placeOf a ≤ placeOf b := by
  cases a with
  | notANumber => cases first
  | infinity s =>
    cases b with
    | notANumber => cases second
    | infinity t => cases s <;> cases t <;> decide
    | zero t => cases s <;> cases t <;> decide
    | finite t n f hn =>
      cases s <;> cases t <;>
        simp [UnpackedFloat.le, UnpackedFloat.compare, placeOf, Prod.Lex.toLex_le_toLex]
  | zero s =>
    cases b with
    | notANumber => cases second
    | infinity t => cases s <;> cases t <;> decide
    | zero t => cases s <;> cases t <;> decide
    | finite t n f hn =>
      cases s <;> cases t <;>
        simp [UnpackedFloat.le, UnpackedFloat.compare, placeOf, Prod.Lex.toLex_le_toLex]
  | finite s m e hm =>
    cases b with
    | notANumber => cases second
    | infinity t =>
      cases s <;> cases t <;>
        simp [UnpackedFloat.le, UnpackedFloat.compare, placeOf, Prod.Lex.toLex_le_toLex]
    | zero t =>
      cases s <;> cases t <;>
        simp [UnpackedFloat.le, UnpackedFloat.compare, placeOf, Prod.Lex.toLex_le_toLex]
    | finite t n f hn => exact finite_le_iff

theorem compare_swap (a b : UnpackedFloat) : b.compare a = (a.compare b).map Ordering.swap := by
  cases a with
  | notANumber => cases b <;> rfl
  | infinity s =>
    cases b with
    | infinity t => cases s <;> cases t <;> rfl
    | _ => cases s <;> rfl
  | zero s =>
    cases b with
    | infinity t => cases t <;> rfl
    | finite t => cases t <;> rfl
    | _ => rfl
  | finite s m e hm =>
    cases b with
    | finite t n f hn =>
      cases s <;> cases t <;>
        simp [UnpackedFloat.compare, Ordering.swap_then, Int.compare_swap, Nat.compare_swap]
    | notANumber => rfl
    | _ t => cases s <;> cases t <;> rfl

theorem unpacked_lt_iff {a b : UnpackedFloat} (first : a.isNaN = false)
    (second : b.isNaN = false) : a.lt b = true ↔ placeOf a < placeOf b := by
  have before := unpacked_le_iff first second
  have after := unpacked_le_iff second first
  -- Both of these look at one comparison, which is there since places can be compared.
  have total := le_total (placeOf a) (placeOf b)
  rw [← before, ← after] at total
  rw [← not_le, ← after]
  simp only [UnpackedFloat.le, UnpackedFloat.lt, compare_swap a b] at total ⊢
  cases order : a.compare b with
  | none => simp [order] at total
  | some o => cases o <;> simp

theorem unpacked_beq_iff {a b : UnpackedFloat} (first : a.isNaN = false)
    (second : b.isNaN = false) : a.beq b = true ↔ placeOf a = placeOf b := by
  rw [le_antisymm_iff (a := placeOf a), ← unpacked_le_iff first second,
    ← unpacked_le_iff second first]
  simp only [UnpackedFloat.le, UnpackedFloat.beq, compare_swap a b]
  cases a.compare b with
  | none => simp
  | some o => cases o <;> simp

/-- The place of a double in the line of all doubles. -/
def place (x : Float) : Int ×ₗ Int ×ₗ Int := placeOf x.toModel.unpack

/-- Doubles that are numbers stand in a line. Zeros of both signs share a place. -/
theorem le_iff_place_le {a b : Float} (first : a.isNaN = false) (second : b.isNaN = false) :
    a ≤ b ↔ place a ≤ place b := by
  have same : a ≤ b ↔ a.toModel.unpack.le b.toModel.unpack = true := by
    change Float.le a b = true ↔ _
    rw [Float.le, decide_eq_true_iff]
    exact Iff.rfl
  rw [same]
  exact unpacked_le_iff first second

theorem lt_iff_place_lt {a b : Float} (first : a.isNaN = false) (second : b.isNaN = false) :
    a < b ↔ place a < place b := by
  have same : a < b ↔ a.toModel.unpack.lt b.toModel.unpack = true := by
    change Float.lt a b = true ↔ _
    rw [Float.lt, decide_eq_true_iff]
    exact Iff.rfl
  rw [same]
  exact unpacked_lt_iff first second

theorem beq_iff_place_eq {a b : Float} (first : a.isNaN = false) (second : b.isNaN = false) :
    (a == b) = true ↔ place a = place b :=
  unpacked_beq_iff first second

end Vouch.Decimal
