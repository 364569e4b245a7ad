import Mathlib.Data.List.Induction
import Vouch.Proofs.Datum.Display
import Vouch.Proofs.Json.Limits

namespace Vouch

theorem mem_setField {name : String} {value : Datum} {fields : List (String × Datum)}
    {f : String × Datum} (member : f ∈ setField name value fields) : f.2 = value ∨ f ∈ fields := by
  unfold setField at member
  split at member
  · obtain ⟨old, there, rfl⟩ := List.mem_map.mp member
    split
    · exact Or.inl rfl
    · exact Or.inr there
  · rcases List.mem_append.mp member with there | new
    · exact Or.inr there
    · rw [List.mem_singleton.mp new]
      exact Or.inl rfl

/-- A value that encloses nothing needs room for itself alone. -/
theorem Datum.fits_one {d : Datum} (short : ¬ d.IsLong) (empty : d.parts = []) : d.Fits 1 :=
  fits_succ_iff.mpr ⟨short, by simp [empty]⟩

namespace Json

theorem natOfDigits_append (digits : List Char) (c : Char) :
    natOfDigits (digits ++ [c]) = natOfDigits digits * 10 + (c.toNat - 48) := by
  simp only [natOfDigits, List.foldl_append, List.foldl_cons, List.foldl_nil]

theorem natOfDigits_lt {digits : List Char} (all : ∀ c ∈ digits, c.isDigit = true) :
    natOfDigits digits < Nat.pow 10 digits.length := by
  induction digits using List.reverseRecOn with
  | nil => exact Nat.one_pos
  | append_singleton digits c ih =>
    have front := ih fun d member => all d (List.mem_append_left _ member)
    have last := all c (by simp)
    have below : c.toNat ≤ 57 := by
      simp only [Char.isDigit, Bool.and_eq_true, decide_eq_true_eq] at last
      exact last.2
    have shift : Nat.pow 10 (digits.length + 1) = Nat.pow 10 digits.length * 10 := rfl
    rw [natOfDigits_append, List.length_append, List.length_singleton]
    omega

theorem leadingDigits_isDigit (body : List Char) : ∀ c ∈ leadingDigits body, c.isDigit = true := by
  rw [leadingDigits]
  split
  · simp
  · exact List.all_eq_true.mp List.all_takeWhile

/-- A whole number that is read has no more digits than can be written. -/
theorem not_isLong_of_digits {digits : List Char} (all : ∀ c ∈ digits, c.isDigit = true)
    (short : digits.length ≤ Text.digitLimit) {k : Int} (size : k.natAbs = natOfDigits digits) :
    ¬ (Datum.int k).IsLong := by
  rintro ⟨_, ⟨⟩, long⟩
  have below := natOfDigits_lt all
  have power := Text.pow_le_digitBound short
  omega

theorem number?_fits {cs : List Char} {d : Datum} {width : Nat}
    (read : number? cs = .ok (some (d, width))) : d.Fits 1 := by
  have all := leadingDigits_isDigit (unsigned cs)
  generalize leading : leadingDigits (unsigned cs) = digits at all
  unfold leadingDigits unsigned at leading
  simp only [number?, leading] at read
  generalize fractionDigits _ = fraction at read
  generalize exponentPart _ = exponent at read
  split at read
  · cases read
  split at read
  · cases read
    exact Datum.fits_one (Datum.not_isLong (by simp)) rfl
  split at read
  · cases read
    exact Datum.fits_one (Datum.not_isLong (by simp)) rfl
  split at read
  · cases read
  · rename_i short
    cases read
    refine Datum.fits_one (not_isLong_of_digits all (Nat.not_lt.mp short) ?_) rfl
    split <;> simp

theorem word?_fits {cs : List Char} {d : Datum} {width : Nat} (read : word? cs = some (d, width)) :
    d.Fits 1 := by
  obtain ⟨w, found, same⟩ := Option.map_eq_some_iff.mp read
  have member := List.mem_of_find?_eq_some found
  simp only [words, List.mem_cons, List.not_mem_nil, or_false] at member
  rcases member with rfl | rfl | rfl | rfl | rfl | rfl <;> cases same <;>
    exact Datum.fits_one (Datum.not_isLong (by simp)) rfl

theorem lexeme_fits {position : Nat} {cs : List Char} {d : Datum} {width : Nat}
    (read : lexeme position cs = .ok (d, width)) : d.Fits 1 := by
  unfold lexeme at read
  split at read
  · split at read
    · cases read
    · cases read
      exact Datum.fits_one (Datum.not_isLong (by simp)) rfl
  · split at read
    · rename_i word
      cases read
      exact word?_fits word
    · split at read
      · cases read
      · rename_i number
        cases read
        exact number?_fits number
      · cases read

/-- What an open value encloses so far. -/
def Open.parts : Open → List Datum
  | array items => items
  | object fields _ => fields.map (·.2)

/-- What open values enclose so far leaves room for them to be closed: of the room for values
enclosed in one another, each has used up as much as there are values open around it. -/
def StackFits : List Open → Prop
  | [] => True
  | inner :: stack => stack.length < depthLimit ∧
      (∀ d ∈ inner.parts, d.Fits (depthLimit - stack.length)) ∧ StackFits stack

def Progress.Fits : Progress → Prop
  | done value => value.Fits (depthLimit + 1)
  | inside stack _ => StackFits stack

theorem StackFits.length_le {stack : List Open} (fits : StackFits stack) :
    stack.length ≤ depthLimit := by
  cases stack with
  | nil => exact Nat.zero_le _
  | cons inner stack => exact fits.1

theorem complete_fits {d : Datum} {stack : List Open} (fits : StackFits stack)
    (room : d.Fits (depthLimit + 1 - stack.length)) : (Progress.complete d stack).Fits := by
  cases stack with
  | nil => exact room
  | cons inner stack =>
    obtain ⟨bound, parts, outer⟩ := fits
    rw [List.length_cons, Nat.add_sub_add_right] at room
    cases inner with
    | array items => exact ⟨bound, List.forall_mem_cons.mpr ⟨room, parts⟩, outer⟩
    | object fields name =>
      refine ⟨bound, List.forall_mem_map.mpr fun f member => ?_, outer⟩
      rcases mem_setField member with same | old
      · rwa [same]
      · exact parts _ (List.mem_map_of_mem old)

/-- A value that is closed takes up the room of its parts and one more. -/
theorem close_fits {stack : List Open} (fits : StackFits stack) : (Progress.close stack).Fits := by
  cases stack with
  | nil => exact trivial
  | cons inner stack =>
    obtain ⟨bound, parts, outer⟩ := fits
    have more : depthLimit + 1 - stack.length = depthLimit - stack.length + 1 := by omega
    cases inner with
    | array items =>
      refine complete_fits outer ?_
      rw [more, Datum.fits_succ_iff]
      exact ⟨Datum.not_isLong (by simp), fun d member => parts d (List.mem_reverse.mp member)⟩
    | object fields name =>
      refine complete_fits outer ?_
      rw [more, Datum.fits_succ_iff]
      exact ⟨Datum.not_isLong (by simp), parts⟩

theorem begin_fits {stack : List Open} {position width : Nat} {cs : List Char} {next : Progress}
    (fits : StackFits stack) (begun : Progress.begin stack position cs = .ok (next, width)) :
    next.Fits := by
  unfold Progress.begin at begun
  split at begun
  · split at begun
    · rename_i bound
      cases begun
      exact ⟨bound, by simp [Open.parts], fits⟩
    · cases begun
  · split at begun
    · rename_i bound
      cases begun
      exact ⟨bound, by simp [Open.parts], fits⟩
    · cases begun
  · split at begun
    · cases begun
    · rename_i value width read
      cases begun
      have le := fits.length_le
      exact complete_fits fits ((lexeme_fits read).mono (by omega))

theorem field_fits {stack : List Open} {position width : Nat} {cs : List Char} {next : Progress}
    (fits : StackFits stack) (read : Progress.field stack position cs = .ok (next, width)) :
    next.Fits := by
  unfold Progress.field at read
  split at read
  · split at read
    · cases read
    · cases read
      exact fits
  · cases read

/-- Each step keeps the room that is needed. -/
theorem step_fits {progress next : Progress} {position width : Nat} {cs : List Char}
    (fits : progress.Fits) (stepped : progress.step position cs = .ok (next, width)) :
    next.Fits := by
  revert stepped
  fun_cases Progress.step position cs progress with
  | case2 | case3 | case6 | case11 =>
    rintro ⟨⟩
    exact close_fits fits
  | case4 | case9 | case12 =>
    rintro ⟨⟩
    exact fits
  | case7 | case8 => exact field_fits fits
  | case14 => exact begin_fits fits
  | _ => rintro ⟨⟩

theorem readFrom_fits {position : Nat} {progress : Progress} {cs : List Char} {d : Datum}
    (fits : progress.Fits) (done : readFrom position progress cs = .ok d) :
    d.Fits (depthLimit + 1) := by
  fun_induction readFrom position progress cs with
  | case1 position progress =>
    unfold Progress.finish at done
    split at done
    · cases done
      exact fits
    · split at done <;> cases done
  | case2 position progress c cs blank ih => exact ih fits done
  | case3 position progress c cs solid fault broken => cases done
  | case4 position progress c cs solid next width stepped ih =>
    exact ih (step_fits fits stepped) done

/-- All that is read can be written, if there is room for one value more than may be open. -/
theorem read_fits {cs : List Char} {d : Datum} (done : read cs = .ok d) :
    d.Fits (depthLimit + 1) := by
  unfold read at done
  split at done
  · cases done
  · have start : (Progress.inside [] .value).Fits := trivial
    exact readFrom_fits start done

end Json

end Vouch
