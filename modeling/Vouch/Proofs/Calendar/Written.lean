import Vouch.Proofs.Calendar.Clock
import Vouch.Proofs.Calendar.Date

namespace Vouch

open Text

theorem Reading.writeTime_toList (r : Reading) :
    r.writeTime.toList = (padded 2 r.hour).toList ++ ':' :: ((padded 2 r.minute).toList ++ ':' ::
      (padded 2 r.second ++ if r.micro = 0 then "" else "." ++ padded 6 r.micro).toList) := by
  simp [writeTime, writeSeconds]

theorem Date.write_toList (d : Date) :
    d.write.toList = (padded 4 d.year).toList ++ '-' :: ((padded 2 d.month).toList ++ '-' ::
      (padded 2 d.day).toList) := by
  simp [write]

theorem Date.write_length {d : Date} (valid : d.Valid) : d.write.toList.length = 10 := by
  obtain ⟨year, month, day⟩ := valid.fits
  rw [d.write_toList, List.length_append, List.length_cons, List.length_append, List.length_cons,
    padded_length (by decide) year, padded_length (by decide) month, padded_length (by decide) day]

theorem Timestamp.write_toList (separator : Char) (t : Timestamp) :
    (t.write separator).toList = t.clock.date.write.toList ++ separator ::
      (t.clock.writeTime.toList ++ ((t.offset.map Offset.write).getD "").toList) := by
  simp [write]

theorem Reading.writeTime_chars (r : Reading) :
    ∀ c ∈ r.writeTime.toList, c.isDigit = true ∨ c = ':' ∨ c = '.' := by
  intro c member
  rw [writeTime_toList] at member
  simp only [List.mem_append, List.mem_cons, String.toList_append] at member
  rcases member with hour | colon | minute | colon | second | fine
  · exact Or.inl (padded_isDigit _ _ c hour)
  · exact Or.inr (Or.inl colon)
  · exact Or.inl (padded_isDigit _ _ c minute)
  · exact Or.inr (Or.inl colon)
  · exact Or.inl (padded_isDigit _ _ c second)
  · split at fine
    · exact absurd fine List.not_mem_nil
    · rw [String.toList_append] at fine
      rcases List.mem_append.mp fine with point | digit
      · exact Or.inr (Or.inr (List.mem_singleton.mp point))
      · exact Or.inl (padded_isDigit _ _ c digit)

namespace Iso

theorem time?_write (r : Reading) (zone : Option Offset) :
    time? (r.writeTime.toList ++ ((zone.map Offset.write).getD "").toList) =
      some (⟨[r.hour, r.minute, r.second], r.micro, false⟩, zone.map Offset.readBack) := by
  have clock : ∀ c ∈ r.writeTime.toList, (!decide (c = '+' ∨ c = '-' ∨ c = 'Z')) = true := by
    intro c member
    rcases r.writeTime_chars c member with digit | rfl | rfl
    · rw [Bool.not_eq_true', decide_eq_false_iff_not]
      rintro (rfl | rfl | rfl) <;> exact absurd digit (by decide)
    · rfl
    · rfl
  obtain ⟨hours, minutes, seconds, fine⟩ := r.fields_lt
  have read := fields?_clock (hours.trans (by decide : 24 < 100))
    (minutes.trans (by decide : 60 < 100)) (seconds.trans (by decide : 60 < 100)) fine
  rw [← r.writeTime_toList] at read
  rw [time?]
  dsimp only
  rw [List.takeWhile_append_of_pos clock, List.dropWhile_append_of_pos clock]
  cases zone with
  | none => simp [read]
  | some o =>
    obtain ⟨amount, _, written, _⟩ := write_fields o
    have before : o.write.toList.takeWhile (fun c => !decide (c = '+' ∨ c = '-' ∨ c = 'Z')) =
        [] := by
      rw [written, Offset.sign]
      split <;> rfl
    have after : o.write.toList.dropWhile (fun c => !decide (c = '+' ∨ c = '-' ∨ c = 'Z')) =
        o.write.toList := by
      rw [written, Offset.sign]
      split <;> rfl
    have some : o.write.toList ≠ [] := by simp [written]
    rw [Option.map_some, Option.getD_some, before, after, List.append_nil]
    simp [read, some, zone?_write o]

theorem day?_write {d : Date} (valid : d.Valid) : day? 10 d.write.toList = some d.number := by
  obtain ⟨year, month, day⟩ := valid.fits
  have noWeek : ((padded 2 d.month).toList ++ '-' :: (padded 2 d.day).toList).head? ≠ some 'W' := by
    obtain ⟨c, cs, digits, isDigit⟩ := exists_padded_cons 2 d.month
    rw [digits]
    rintro ⟨rfl⟩
    exact absurd isDigit (by decide)
  rw [d.write_toList, day?, number?_padded (by decide) year]
  simp only [Option.bind_eq_bind, Option.bind_some, hyphen?, List.head?_cons, decide_true, if_true,
    List.tail_cons, if_neg noWeek, number?_padded (by decide) month,
    number?_padded_end (by decide) day]
  exact if_pos valid

theorem dateWidth?_write {d : Date} (valid : d.Valid) (rest : List Char) :
    dateWidth? (d.write.toList ++ rest) = some 10 := by
  have year : (padded 4 d.year).toList.length = 4 := padded_length (by decide) valid.fits.1
  have long : (d.write.toList ++ rest).length ≠ 7 := by
    rw [List.length_append, Date.write_length valid]
    omega
  obtain ⟨c, cs, digits, isDigit⟩ := exists_padded_cons 2 d.month
  have noWeek : c ≠ 'W' := by
    rintro rfl
    exact absurd isDigit (by decide)
  have hyphen : (d.write.toList ++ rest)[4]? = some '-' := by
    rw [d.write_toList, List.append_assoc, List.getElem?_append_right year.le, year]
    rfl
  have month : (d.write.toList ++ rest)[5]? = some c := by
    rw [d.write_toList, List.append_assoc,
      List.getElem?_append_right (year.le.trans (by decide)), year, digits]
    rfl
  rw [dateWidth?, if_neg long, if_pos hyphen, month]
  simp [noWeek]

/-- Reading gives back what was written, whatever stands between date and time, except for an offset
of less than a second. -/
theorem read?_write (t : Timestamp) (separator : Char) :
    read? (t.write separator).toList = some ⟨t.clock, t.offset.map Offset.readBack⟩ := by
  have valid := t.clock.date_valid
  have length := Date.write_length valid
  have long : (t.write separator).toList.length = 11 +
      (t.clock.writeTime.toList ++ ((t.offset.map Offset.write).getD "").toList).length := by
    rw [t.write_toList, List.length_append, List.length_cons, length]
    omega
  have date : (t.write separator).toList.take 10 = t.clock.date.write.toList := by
    rw [t.write_toList, ← length, List.take_left]
  have time : (t.write separator).toList.drop 11 =
      t.clock.writeTime.toList ++ ((t.offset.map Offset.write).getD "").toList := by
    have split : 11 = t.clock.date.write.toList.length + 1 := by rw [length]
    rw [t.write_toList, split, ← List.drop_drop, List.drop_left]
    rfl
  have width : dateWidth? (t.write separator).toList = some 10 := by
    rw [t.write_toList]
    exact dateWidth?_write valid _
  have goesOn : ¬ (t.write separator).toList.length ≤ 10 := by omega
  rw [read?, if_neg (by omega), width]
  simp only [Option.bind_eq_bind, Option.bind_some, date, day?_write valid, if_neg goesOn, time,
    time?_write]
  change (Reading.ofDay? t.clock.date.number t.clock.hour t.clock.minute t.clock.second
    t.clock.micro).bind _ = _
  rw [t.clock.ofDay?_fields]
  rfl

end Iso

end Vouch
