import Vouch.Datum.Display
import Vouch.Proofs.Except

namespace Vouch

-- The limit is a variable in these proofs, so that the power is not worked out.

theorem Text.digitBound_pos : 0 < digitBound := by
  delta digitBound
  generalize digitLimit = limit
  exact Nat.pow_pos (by decide)

theorem Text.pow_le_digitBound {width : Nat} (short : width ≤ digitLimit) :
    Nat.pow 10 width ≤ digitBound := by
  delta digitBound
  generalize digitLimit = limit at short
  exact Nat.pow_le_pow_right (by decide) short

namespace Datum

/-- The values that a value encloses. -/
def parts : Datum → List Datum
  | list items | tuple items => items
  | record fields => fields.map (·.2)
  | _ => []

theorem mem_parts_of_field? {name : String} {fields : List (String × Datum)} {d : Datum}
    (found : field? name fields = some d) : d ∈ (record fields).parts := by
  obtain ⟨f, there, rfl⟩ := Option.map_eq_some_iff.mp found
  exact List.mem_map_of_mem (List.mem_of_find?_eq_some there)

/-- A value stands in another one, enclosed by so many values of it. -/
inductive Within : Nat → Datum → Datum → Prop
  | self (d : Datum) : Within 0 d d
  | part {n : Nat} {e part d : Datum} : part ∈ d.parts → Within n e part → Within (n + 1) e d

/-- A whole number has more digits than can be written. -/
def IsLong (d : Datum) : Prop := ∃ k : Int, d = .int k ∧ Text.digitBound ≤ k.natAbs

theorem not_isLong {d : Datum} (notInt : ∀ k, d ≠ .int k) : ¬ d.IsLong :=
  fun ⟨k, same, _⟩ => notInt k same

/-- A value has no text: too long a number stands in it, or values are enclosed in it too deeply. -/
def Unwritable (d : Datum) : Prop :=
  (∃ n e, Within n e d ∧ e.IsLong) ∨ ∃ e, Within nestingLimit e d

/-- A value can be written where there is room for so many values enclosed in one another. -/
def Fits (room : Nat) (d : Datum) : Prop := ∃ text, d.quoted room = .ok text

theorem not_fits_zero (d : Datum) : ¬ d.Fits 0 := by
  rintro ⟨text, ⟨⟩⟩

/-- A value fits if it is no long number and its parts fit in what room it leaves. -/
theorem fits_succ_iff {room : Nat} {d : Datum} :
    d.Fits (room + 1) ↔ ¬ d.IsLong ∧ ∀ part ∈ d.parts, part.Fits room := by
  cases d with
  | int k =>
    by_cases long : Text.digitBound ≤ k.natAbs <;> simp [Fits, quoted, IsLong, parts, long]
  | list items =>
    rw [and_iff_right (not_isLong (by simp)), Fits, quoted, exists_map_eq_ok_iff,
      exists_mapM_eq_ok_iff]
    rfl
  | tuple items =>
    rw [and_iff_right (not_isLong (by simp)), Fits, quoted, exists_map_eq_ok_iff,
      exists_mapM_eq_ok_iff]
    rfl
  | record fields =>
    rw [and_iff_right (not_isLong (by simp)), Fits, quoted, exists_map_eq_ok_iff,
      exists_mapM_eq_ok_iff]
    simp only [exists_map_eq_ok_iff, parts, List.forall_mem_map, Fits]
  | _ => simp [Fits, quoted, IsLong, parts]

theorem Fits.mono {room more : Nat} (le : room ≤ more) {d : Datum} (fits : d.Fits room) :
    d.Fits more := by
  induction room generalizing more d with
  | zero => exact absurd fits (not_fits_zero d)
  | succ room ih =>
    obtain ⟨more, rfl⟩ : ∃ rest, more = rest + 1 := ⟨more - 1, by omega⟩
    obtain ⟨short, inner⟩ := fits_succ_iff.mp fits
    exact fits_succ_iff.mpr ⟨short, fun part member => ih (by omega) (inner part member)⟩

theorem within_succ_iff {n : Nat} {e d : Datum} :
    Within (n + 1) e d ↔ ∃ part ∈ d.parts, Within n e part := by
  constructor
  · rintro (_ | ⟨member, inner⟩)
    exact ⟨_, member, inner⟩
  · rintro ⟨part, member, inner⟩
    exact .part member inner

/-- A value fits just if no long number stands in it and there is nothing that is enclosed as deeply
as there is room. -/
theorem fits_iff {room : Nat} {d : Datum} :
    d.Fits room ↔ (∀ n e, Within n e d → ¬ e.IsLong) ∧ ∀ e, ¬ Within room e d := by
  induction room generalizing d with
  | zero =>
    refine iff_of_false (not_fits_zero d) fun ⟨_, empty⟩ => empty d (.self d)
  | succ room ih =>
    simp only [fits_succ_iff, ih, within_succ_iff]
    constructor
    · rintro ⟨short, inner⟩
      refine ⟨fun n e within => ?_, fun e ⟨part, member, within⟩ => (inner part member).2 e within⟩
      cases within with
      | self => exact short
      | part member within => exact (inner _ member).1 _ _ within
    · rintro ⟨short, shallow⟩
      refine ⟨short 0 d (.self d), fun part member => ⟨fun n e within => ?_, fun e within => ?_⟩⟩
      · exact short _ e (.part member within)
      · exact shallow e ⟨part, member, within⟩

theorem fits_nestingLimit_iff {d : Datum} : d.Fits nestingLimit ↔ ¬ d.Unwritable := by
  simp only [fits_iff, Unwritable, not_or, not_exists, not_and]

/-- A value without parts that is no number can be written. -/
theorem not_unwritable_of_parts {d : Datum} (empty : d.parts = []) (notInt : ∀ k, d ≠ .int k) :
    ¬ d.Unwritable := by
  refine fits_nestingLimit_iff.mp (fits_succ_iff.mpr ⟨not_isLong notInt, ?_⟩)
  simp [empty]

/-- Values are displayed unless they are unwritable. -/
theorem exists_display_eq_ok_iff {d : Datum} :
    (∃ text, d.display = .ok text) ↔ ¬ d.Unwritable := by
  cases d with
  | text value => exact iff_of_true ⟨value, rfl⟩ (not_unwritable_of_parts rfl (by simp))
  | time value => exact iff_of_true ⟨value.spaced, rfl⟩ (not_unwritable_of_parts rfl (by simp))
  | _ =>
    simp only [display]
    exact fits_nestingLimit_iff

theorem exists_display_eq_error_iff {d : Datum} :
    (∃ cause, d.display = .error cause) ↔ d.Unwritable := by
  rw [exists_eq_error_iff, exists_display_eq_ok_iff, not_not]

theorem not_unwritable_of_isVoid {d : Datum} (void : d.isVoid = true) : ¬ d.Unwritable := by
  cases d with
  | int k =>
    obtain rfl : k = 0 := by simpa [isVoid] using void
    refine fits_nestingLimit_iff.mp (fits_succ_iff.mpr ⟨?_, by simp [parts]⟩)
    rintro ⟨k, ⟨⟩, long⟩
    exact absurd Text.digitBound_pos (Nat.not_lt.mpr long)
  | time t => cases void
  | list items | tuple items | record fields =>
    refine not_unwritable_of_parts ?_ (by simp)
    simpa [isVoid, parts] using void
  | _ => exact not_unwritable_of_parts rfl (by simp)

/-- The text that stands for a value if a field of an object must be a text. -/
def wording (d : Datum) : Except Unwritten String := if d.isVoid then .ok "" else d.display

theorem wording_text (value : String) : (text value).wording = .ok value := by
  rw [wording]
  split
  · rename_i void
    rw [beq_iff_eq.mp void]
  · rfl

theorem wording_eq_error_iff {d : Datum} {cause : Unwritten} :
    d.wording = .error cause ↔ d.display = .error cause := by
  rw [wording]
  split
  · rename_i void
    refine iff_of_false (by simp) fun failed => ?_
    exact not_unwritable_of_isVoid void (exists_display_eq_error_iff.mp ⟨cause, failed⟩)
  · rfl

end Datum

end Vouch
