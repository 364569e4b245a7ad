import Mathlib
import Vouch.Calendar.Reading

namespace Vouch

namespace Date

variable {year n : Nat}

def yearLength (year : Nat) : Nat := if isLeap year then 366 else 365

theorem isLeap_iff : isLeap year = true ↔ 4 ∣ year ∧ (¬ 100 ∣ year ∨ 400 ∣ year) := by
  simp [isLeap, Nat.dvd_iff_mod_eq_zero]

theorem daysBeforeYear_succ (positive : 1 ≤ year) :
    daysBeforeYear (year + 1) = daysBeforeYear year + yearLength year := by
  obtain ⟨passed, rfl⟩ := Nat.exists_eq_add_of_le' positive
  have more : passed / 100 ≤ passed / 4 := Nat.div_le_div_left (by decide) (by decide)
  simp only [daysBeforeYear, yearLength, isLeap_iff, Nat.add_sub_cancel, Nat.succ_div]
  split_ifs <;> omega

theorem daysBeforeYear_mono : Monotone daysBeforeYear := by
  refine monotone_nat_of_le_succ fun year => ?_
  cases year with
  | zero => decide
  | succ passed =>
    rw [daysBeforeYear_succ (Nat.succ_pos passed)]
    exact Nat.le_add_right _ _

/-- The year of a day is the one that has begun by then, while the next one has not. -/
theorem yearOfNumber_bounds (n : Nat) :
    1 ≤ yearOfNumber n ∧ daysBeforeYear (yearOfNumber n) ≤ n ∧
      n < daysBeforeYear (yearOfNumber n + 1) := by
  have low : daysBeforeYear (n * 400 / 146097 + 1) ≤ n := by
    simp only [daysBeforeYear]
    omega
  have high : n < daysBeforeYear (n * 400 / 146097 + 1 + 1 + 1) := by
    simp only [daysBeforeYear]
    omega
  rw [yearOfNumber]
  split
  · rename_i begun
    exact ⟨Nat.succ_pos _, begun, high⟩
  · rename_i ahead
    exact ⟨Nat.succ_pos _, low, not_le.mp ahead⟩

theorem yearDay_lt (n : Nat) : n - daysBeforeYear (yearOfNumber n) < yearLength (yearOfNumber n) := by
  obtain ⟨positive, begun, ahead⟩ := yearOfNumber_bounds n
  rw [daysBeforeYear_succ positive] at ahead
  omega

/-- One of the first four years whose months are those of a year. -/
def sample (year : Nat) : Nat := if isLeap year then 4 else 1

theorem isLeap_sample (year : Nat) : isLeap (sample year) = isLeap year := by
  unfold sample
  split <;> simp_all [isLeap]

theorem daysBeforeMonth_sample (year : Nat) :
    daysBeforeMonth (sample year) = daysBeforeMonth year := by
  unfold daysBeforeMonth
  rw [isLeap_sample]

theorem monthLength_sample (year : Nat) : monthLength (sample year) = monthLength year := by
  unfold monthLength
  rw [isLeap_sample]

theorem yearLength_sample (year : Nat) : yearLength (sample year) = yearLength year := by
  rw [yearLength, isLeap_sample, yearLength]

theorem monthOfYearDay_sample (year n : Nat) :
    monthOfYearDay (sample year) n = monthOfYearDay year n := by
  rw [monthOfYearDay, daysBeforeMonth_sample, monthOfYearDay]

theorem sample_mem (year : Nat) : sample year ∈ [1, 4] := by
  unfold sample
  split <;> decide

/-- A month holds so many days of the year. -/
theorem monthOfYearDay_bounds (day : n < yearLength year) :
    (1 ≤ monthOfYearDay year n ∧ monthOfYearDay year n ≤ 12) ∧
      daysBeforeMonth year (monthOfYearDay year n) ≤ n ∧
      n - daysBeforeMonth year (monthOfYearDay year n) <
        monthLength year (monthOfYearDay year n) := by
  -- Months know a year by its leap day alone, so that two years stand for all.
  have samples : ∀ year ∈ [1, 4], ∀ n < yearLength year,
      (1 ≤ monthOfYearDay year n ∧ monthOfYearDay year n ≤ 12) ∧
        daysBeforeMonth year (monthOfYearDay year n) ≤ n ∧
        n - daysBeforeMonth year (monthOfYearDay year n) <
          monthLength year (monthOfYearDay year n) := by decide +kernel
  have found := samples (sample year) (sample_mem year) n (by rwa [yearLength_sample])
  rwa [monthOfYearDay_sample, daysBeforeMonth_sample, monthLength_sample] at found

theorem monthLength_le {month : Nat} (last : month ≤ 12) : monthLength year month ≤ 31 := by
  have lengths : ∀ leap, ∀ place < 12, (monthLengths leap).getD place 0 ≤ 31 := by decide
  exact lengths (isLeap year) (month - 1) (by omega)

theorem number_ofNumber (n : Nat) : (ofNumber n).number = n := by
  obtain ⟨_, begun, _⟩ := yearOfNumber_bounds n
  obtain ⟨_, before, _⟩ := monthOfYearDay_bounds (yearDay_lt n)
  simp only [ofNumber, number]
  omega

theorem ofNumber_valid (inside : n < calendarDays) : (ofNumber n).Valid := by
  obtain ⟨positive, begun, _⟩ := yearOfNumber_bounds n
  have below : yearOfNumber n < 10000 :=
    daysBeforeYear_mono.reflect_lt (begun.trans_lt inside)
  obtain ⟨⟨first, last⟩, _, fits⟩ := monthOfYearDay_bounds (yearDay_lt n)
  exact ⟨positive, Nat.le_of_lt_succ below, first, last, Nat.succ_pos _, fits⟩

variable {d : Date}

theorem Valid.fits (valid : d.Valid) : d.year < 10 ^ 4 ∧ d.month < 10 ^ 2 ∧ d.day < 10 ^ 2 := by
  obtain ⟨_, lastYear, _, lastMonth, _, lastDay⟩ := valid
  have days : d.day ≤ 31 := lastDay.trans (monthLength_le lastMonth)
  omega

end Date

namespace Reading

theorem date_valid (r : Reading) : r.date.Valid :=
  Date.ofNumber_valid (Nat.div_lt_of_lt_mul (mul_comm 3652059 86400000000 ▸ r.inside))

theorem date_number (r : Reading) : r.date.number = r.micros / 86400000000 :=
  Date.number_ofNumber _

theorem ofMicros?_eq_some_iff {micros : Int} {r : Reading} :
    ofMicros? micros = some r ↔ (r.micros : Int) = micros := by
  obtain ⟨own, inside⟩ := r
  unfold ofMicros?
  split
  · simp only [Option.some.injEq, mk.injEq]
    omega
  · simp only [reduceCtorEq, false_iff]
    omega

theorem fields_lt (r : Reading) :
    r.hour < 24 ∧ r.minute < 60 ∧ r.second < 60 ∧ r.micro < 1000000 :=
  ⟨Nat.mod_lt _ (by decide), Nat.mod_lt _ (by decide), Nat.mod_lt _ (by decide),
    Nat.mod_lt _ (by decide)⟩

/-- Putting the fields of a reading together again gives the reading. -/
theorem ofDay?_fields (r : Reading) :
    ofDay? r.date.number r.hour r.minute r.second r.micro = some r := by
  rw [ofDay?, if_pos r.fields_lt, ofMicros?_eq_some_iff, date_number]
  simp only [hour, minute, second, micro]
  omega

end Reading

end Vouch
