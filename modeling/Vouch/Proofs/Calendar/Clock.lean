import Vouch.Calendar.Iso
import Vouch.Calendar.Written
import Vouch.Proofs.Text.Padded

namespace Vouch

open Text

/-- What the text of an offset is read as. Less than a second is written, and is read as none. -/
def Offset.readBack (o : Offset) : Offset := if o.micros.natAbs < 1000000 then utc else o

theorem Offset.readBack_of_dvd {o : Offset} (whole : 1000000 ∣ o.micros) : o.readBack = o := by
  have known : ofMicros? o.micros = some o := dif_pos o.belowDay
  unfold readBack
  split
  · have zero : o.micros = 0 := by omega
    rw [zero] at known
    exact Option.some.inj known
  · rfl

namespace Offset

def sign (o : Offset) : Char := if o.micros < 0 then '-' else '+'

theorem sign_toList (o : Offset) : (if o.micros < 0 then "-" else "+").toList = [o.sign] := by
  unfold sign
  split <;> rfl

theorem write_minutes {o : Offset} (whole : o.micros.natAbs % 60000000 = 0) :
    o.write.toList = o.sign :: ((padded 2 (o.micros.natAbs / 1000000 / 3600)).toList ++ ':' ::
      (padded 2 (o.micros.natAbs / 1000000 / 60 % 60)).toList) := by
  simp [write, whole, sign_toList]

theorem write_seconds {o : Offset} (further : o.micros.natAbs % 60000000 ≠ 0) :
    o.write.toList = o.sign :: ((padded 2 (o.micros.natAbs / 1000000 / 3600)).toList ++ ':' ::
      ((padded 2 (o.micros.natAbs / 1000000 / 60 % 60)).toList ++ ':' ::
        (padded 2 (o.micros.natAbs / 1000000 % 60) ++
          if o.micros.natAbs % 1000000 = 0 then ""
          else "." ++ padded 6 (o.micros.natAbs % 1000000)).toList)) := by
  simp [write, further, sign_toList]

end Offset

namespace Iso

theorem number?_snoc {width a d : Nat} {c : Char} {cs rest : List Char}
    (front : number? width cs = some (a, c :: rest)) (digit : asciiDigit? c = some d) :
    number? (width + 1) cs = some (10 * a + d, rest) := by
  -- The reader starts with the highest digit, and writing ends with the lowest.
  induction width generalizing a cs with
  | zero =>
    cases front
    simp [number?, digit]
  | succ width ih =>
    cases cs with
    | nil => simp [number?] at front
    | cons first cs =>
      rw [number?] at front ⊢
      obtain ⟨top, isDigit, front⟩ := Option.bind_eq_some_iff.mp front
      obtain ⟨⟨low, more⟩, read, front⟩ := Option.bind_eq_some_iff.mp front
      cases front
      rw [isDigit, Option.bind_eq_bind, Option.bind_some, ih read]
      have shift : Nat.pow 10 (width + 1) = 10 * Nat.pow 10 width := Nat.pow_succ'
      simp only [Option.bind_eq_bind, Option.bind_some, Option.some.injEq, Prod.mk.injEq, and_true]
      rw [shift]
      ring

/-- Reading takes exactly the digits that were written. -/
theorem number?_padded {width n : Nat} (positive : 1 ≤ width) (fits : n < 10 ^ width)
    (rest : List Char) : number? width ((padded width n).toList ++ rest) = some (n, rest) := by
  induction width, positive using Nat.le_induction generalizing n rest with
  | base =>
    rw [padded_one fits]
    simp [number?, asciiDigit?_digitChar fits]
  | succ width positive ih =>
    have upper : n / 10 < 10 ^ width := Nat.div_lt_of_lt_mul (by rwa [← Nat.pow_succ'])
    rw [padded_succ positive, List.append_assoc, List.singleton_append]
    have read := number?_snoc (ih upper ((n % 10).digitChar :: rest))
      (asciiDigit?_digitChar (Nat.mod_lt n (by decide)))
    rw [read, Nat.div_add_mod]

theorem number?_padded_end {width n : Nat} (positive : 1 ≤ width) (fits : n < 10 ^ width) :
    number? width (padded width n).toList = some (n, []) := by
  have read := number?_padded positive fits []
  rwa [List.append_nil] at read

section

variable {left value micro : Nat} {colons : Option Bool} {parts : List Nat}

theorem fields?_colon {after : List Char} (kept : colons ≠ some false) (fits : value < 100)
    (more : after ≠ []) :
    fields? (left + 1) colons parts ((padded 2 value).toList ++ ':' :: after) =
      fields? left (some true) (parts ++ [value]) after := by
  have read : number? 2 ((padded 2 value).toList ++ ':' :: after) = some (value, ':' :: after) :=
    number?_padded (by decide) fits _
  have opened : colons.getD true = true := by
    cases colons with
    | none => rfl
    | some kind => exact Bool.eq_true_of_not_eq_false fun closed => kept (congrArg some closed)
  rw [fields?, read]
  simp [more, opened]

theorem fields?_last (fits : value < 100) :
    fields? left colons parts (padded 2 value).toList = some ⟨parts ++ [value], 0, false⟩ := by
  rw [fields?, number?_padded_end (by decide) fits]
  rfl

theorem fields?_point (fits : value < 100) (fine : micro < 1000000) :
    fields? left colons parts ((padded 2 value).toList ++ '.' :: (padded 6 micro).toList) =
      some ⟨parts ++ [value], micro, false⟩ := by
  have read : number? 2 ((padded 2 value).toList ++ '.' :: (padded 6 micro).toList) =
      some (value, '.' :: (padded 6 micro).toList) := number?_padded (by decide) fits _
  have digits : number? 6 (padded 6 micro).toList = some (micro, []) :=
    number?_padded_end (by decide) fine
  have length : (padded 6 micro).toList.length = 6 := padded_length (by decide) fine
  have more : padded 6 micro ≠ "" := String.toList_eq_nil_iff.not.mp (padded_ne_nil 6 micro)
  have none : (padded 6 micro).toList.drop 6 = [] := List.drop_eq_nil_of_le length.le
  rw [fields?, read]
  simp [more, fraction?, length, digits, none, goesOn]

/-- Seconds and what is written of their fraction. -/
theorem fields?_seconds (fits : value < 100) (fine : micro < 1000000) :
    fields? left colons parts
        (padded 2 value ++ if micro = 0 then "" else "." ++ padded 6 micro).toList =
      some ⟨parts ++ [value], micro, false⟩ := by
  split
  · rename_i none
    rw [String.append_empty, fields?_last fits, none]
  · rw [String.toList_append, String.toList_append]
    exact fields?_point fits fine

end

section

variable {hour minute second micro : Nat}

theorem fields?_minutes (hours : hour < 100) (minutes : minute < 100) :
    fields? 2 none [] ((padded 2 hour).toList ++ ':' :: (padded 2 minute).toList) =
      some ⟨[hour, minute], 0, false⟩ := by
  rw [fields?_colon (by decide) hours (padded_ne_nil 2 minute), fields?_last minutes]
  rfl

theorem fields?_clock (hours : hour < 100) (minutes : minute < 100) (seconds : second < 100)
    (fine : micro < 1000000) :
    fields? 2 none [] ((padded 2 hour).toList ++ ':' :: ((padded 2 minute).toList ++ ':' ::
        (padded 2 second ++ if micro = 0 then "" else "." ++ padded 6 micro).toList)) =
      some ⟨[hour, minute, second], micro, false⟩ := by
  rw [fields?_colon (by decide) hours (by simp), fields?_colon (by decide) minutes ?_,
    fields?_seconds seconds fine]
  · rfl
  · rw [String.toList_append]
    exact List.append_ne_nil_of_left_ne_nil (padded_ne_nil 2 second) _

end

/-- The sign of an offset is followed by fields that come to its amount. -/
theorem write_fields (o : Offset) :
    ∃ amount fields, o.write.toList = o.sign :: amount ∧
      fields? 2 none [] amount = some fields ∧ fields.more = false ∧ fields.micro < 1000000 ∧
      fields.seconds * 1000000 + fields.micro = o.micros.natAbs := by
  have below := o.belowDay
  have hours : o.micros.natAbs / 1000000 / 3600 < 100 := by omega
  have minutes : o.micros.natAbs / 1000000 / 60 % 60 < 100 := by omega
  by_cases whole : o.micros.natAbs % 60000000 = 0
  · refine ⟨_, ⟨[_, _], 0, false⟩, Offset.write_minutes whole, fields?_minutes hours minutes, rfl,
      Nat.succ_pos _, ?_⟩
    change (o.micros.natAbs / 1000000 / 3600 * 3600 + o.micros.natAbs / 1000000 / 60 % 60 * 60 + 0)
      * 1000000 + 0 = o.micros.natAbs
    omega
  · have seconds : o.micros.natAbs / 1000000 % 60 < 100 := by omega
    have fine : o.micros.natAbs % 1000000 < 1000000 := Nat.mod_lt _ (by decide)
    refine ⟨_, ⟨[_, _, _], _, false⟩, Offset.write_seconds whole,
      fields?_clock hours minutes seconds fine, rfl, fine, ?_⟩
    change (o.micros.natAbs / 1000000 / 3600 * 3600 + o.micros.natAbs / 1000000 / 60 % 60 * 60 +
      o.micros.natAbs / 1000000 % 60) * 1000000 + o.micros.natAbs % 1000000 = o.micros.natAbs
    omega

theorem zone?_write (o : Offset) : zone? o.write.toList = some o.readBack := by
  obtain ⟨amount, fields, written, read, ended, fine, total⟩ := write_fields o
  have known : Offset.ofMicros? o.micros = some o := dif_pos o.belowDay
  rw [written, Offset.readBack, Offset.sign]
  by_cases small : o.micros.natAbs < 1000000
  · have none : fields.seconds = 0 := by omega
    rw [if_pos small]
    split <;> simp [zone?, read, ended, none]
  · have some : fields.seconds ≠ 0 := by omega
    rw [if_neg small]
    by_cases behind : o.micros < 0
    · have amount : -((fields.seconds * 1000000 : Int) + fields.micro) = o.micros := by omega
      rw [if_pos behind]
      simp [zone?, read, ended, some, amount, known, -neg_add_rev]
    · have amount : (fields.seconds * 1000000 : Int) + fields.micro = o.micros := by omega
      rw [if_neg behind]
      simp [zone?, read, ended, some, amount, known]

end Iso

end Vouch
