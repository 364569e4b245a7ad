import Mathlib.Data.List.DropRight
import Vouch.Text.Blank

namespace Vouch.Text

/-- No blank stands at either end of a text. -/
def Trimmed (text : String) : Prop :=
  (∀ c, text.toList.head? = some c → isBlank c = false) ∧
    ∀ c, text.toList.getLast? = some c → isBlank c = false

/-- What is left of a text without the blanks at its ends has none there. -/
theorem strip_trimmed (text : String) : Trimmed (strip text) := by
  have kept : (strip text).toList = (text.toList.dropWhile isBlank).rdropWhile isBlank := by
    rw [strip, String.toList_ofList]
    rfl
  rw [Trimmed, kept]
  constructor
  · intro c first
    -- Cutting the end leaves the first character as it is.
    obtain ⟨rest, whole⟩ := List.rdropWhile_prefix isBlank (text.toList.dropWhile isBlank)
    have head := List.head?_dropWhile_not isBlank text.toList
    rw [← whole, List.head?_append, first] at head
    exact head
  · intro c last
    obtain ⟨nonempty, rfl⟩ := List.mem_getLast?_eq_getLast last
    exact Bool.eq_false_iff.mpr (List.rdropWhile_last_not isBlank _ nonempty)

/-- Blanks around a text that has none at its ends are all that is cut off. -/
theorem trim_blanks {before text after : List Char} {first last : Char}
    (start : text.head? = some first) (stop : text.getLast? = some last)
    (firstInk : isBlank first = false) (lastInk : isBlank last = false)
    (blankBefore : ∀ c ∈ before, isBlank c = true) (blankAfter : ∀ c ∈ after, isBlank c = true) :
    trim (before ++ text ++ after) = text := by
  have front : (before ++ text ++ after).dropWhile isBlank = text ++ after := by
    obtain ⟨rest, rfl⟩ := List.head?_eq_some_iff.mp start
    rw [List.append_assoc, List.dropWhile_append_of_pos blankBefore, List.cons_append,
      List.dropWhile_cons_of_neg (Bool.eq_false_iff.mp firstInk)]
  have back : (text ++ after).reverse.dropWhile isBlank = text.reverse := by
    obtain ⟨rest, rfl⟩ := List.getLast?_eq_some_iff.mp stop
    have blank : ∀ c ∈ after.reverse, isBlank c = true := fun c member =>
      blankAfter c (List.mem_reverse.mp member)
    rw [List.reverse_append, List.dropWhile_append_of_pos blank, List.reverse_append,
      List.reverse_singleton, List.singleton_append,
      List.dropWhile_cons_of_neg (Bool.eq_false_iff.mp lastInk)]
  rw [trim, front, back, List.reverse_reverse]

/-- Where no blank stands at an end, nothing is cut off. -/
theorem strip_of_trimmed {text : String} (trimmed : Trimmed text) : strip text = text := by
  obtain ⟨start, stop⟩ := trimmed
  have kept : trim text.toList = text.toList := by
    cases first : text.toList.head? with
    | none =>
      rw [List.head?_eq_none_iff.mp first]
      rfl
    | some c =>
      cases last : text.toList.getLast? with
      | none =>
        rw [List.getLast?_eq_none_iff.mp last]
        rfl
      | some d =>
        have whole := @trim_blanks [] text.toList [] c d first last (start c first) (stop d last)
          (by simp) (by simp)
        simpa using whole
  rw [strip, kept, String.ofList_toList]

@[simp] theorem strip_strip (text : String) : strip (strip text) = strip text :=
  strip_of_trimmed (strip_trimmed text)

end Vouch.Text
