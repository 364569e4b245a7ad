import Mathlib
import Vouch.Text.Digit

namespace Vouch.Text

theorem asciiDigit?_digitChar {d : Nat} (small : d < 10) : asciiDigit? d.digitChar = some d := by
  rw [asciiDigit?, Nat.isDigit_digitChar, if_pos (decide_eq_true small),
    Nat.toNat_digitChar_of_lt_ten small, Nat.add_sub_cancel_left]

theorem padded_toList (width n : Nat) :
    (padded width n).toList =
      List.replicate (width - (Nat.toDigits 10 n).length) '0' ++ Nat.toDigits 10 n := by
  rw [padded, String.toList_ofList]

theorem padded_one {n : Nat} (fits : n < 10) : (padded 1 n).toList = [n.digitChar] := by
  rw [padded_toList, Nat.toDigits_of_lt_base fits]
  rfl

/-- The last digit of a number comes off at the end. -/
theorem padded_succ {width : Nat} (positive : 1 ≤ width) (n : Nat) :
    (padded (width + 1) n).toList = (padded width (n / 10)).toList ++ [(n % 10).digitChar] := by
  rw [padded_toList, padded_toList, Nat.toDigits_eq_if (by decide)]
  split
  · rename_i small
    obtain ⟨further, rfl⟩ := Nat.exists_eq_add_of_le' positive
    rw [Nat.div_eq_of_lt small, Nat.mod_eq_of_lt small, Nat.toDigits_zero, ← List.replicate_succ']
    rfl
  · rw [List.length_append, List.length_singleton, Nat.add_sub_add_right, List.append_assoc]

theorem padded_ne_nil (width n : Nat) : (padded width n).toList ≠ [] := by
  rw [padded_toList]
  exact List.append_ne_nil_of_right_ne_nil _ Nat.toDigits_ne_nil

theorem padded_length {width n : Nat} (positive : 1 ≤ width) (fits : n < 10 ^ width) :
    (padded width n).toList.length = width := by
  have short := (Nat.length_toDigits_le_iff (b := 10) (by decide) positive).mpr fits
  rw [padded_toList, List.length_append, List.length_replicate, Nat.sub_add_cancel short]

theorem padded_isDigit (width n : Nat) : ∀ c ∈ (padded width n).toList, c.isDigit = true := by
  intro c member
  rw [padded_toList, List.mem_append] at member
  rcases member with filled | digit
  · rw [List.eq_of_mem_replicate filled]
    rfl
  · exact Nat.isDigit_of_mem_toDigits (by decide) (by decide) digit

theorem exists_padded_cons (width n : Nat) :
    ∃ c cs, (padded width n).toList = c :: cs ∧ c.isDigit = true := by
  obtain ⟨c, cs, digits⟩ := List.exists_cons_of_ne_nil (padded_ne_nil width n)
  exact ⟨c, cs, digits, padded_isDigit width n c (digits ▸ List.mem_cons_self)⟩

/-- A digit stands at the end of some characters. -/
def EndsInDigit (cs : List Char) : Prop := ∃ c, cs.getLast? = some c ∧ c.isDigit = true

theorem EndsInDigit.append {cs : List Char} (ends : EndsInDigit cs) (before : List Char) :
    EndsInDigit (before ++ cs) := by
  obtain ⟨c, last, digit⟩ := ends
  exact ⟨c, by rw [List.getLast?_append, last, Option.some_or], digit⟩

theorem EndsInDigit.cons {cs : List Char} (ends : EndsInDigit cs) (c : Char) :
    EndsInDigit (c :: cs) :=
  ends.append [c]

theorem padded_endsInDigit (width n : Nat) : EndsInDigit (padded width n).toList := by
  have last := List.getLast?_eq_some_getLast (padded_ne_nil width n)
  exact ⟨_, last, padded_isDigit width n _ (List.getLast_mem _)⟩

end Vouch.Text
