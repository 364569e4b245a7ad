import Vouch.Datum.Sighting
import Vouch.Proofs.Calendar.Written
import Vouch.Proofs.Text.Trimmed

namespace Vouch

open Text

theorem isBlank_of_isDigit {c : Char} (digit : c.isDigit = true) : isBlank c = false := by
  simp only [Char.isDigit, Bool.and_eq_true, decide_eq_true_eq] at digit
  have low : 48 ≤ c.toNat := digit.1
  have high : c.toNat ≤ 57 := digit.2
  simp [isBlank]
  omega

/-- The offset is written without a fraction of a second. -/
def Timestamp.Whole (t : Timestamp) : Prop := ∀ o, t.offset = some o → 1000000 ∣ o.micros

/-- What stands for a timestamp: the timestamp itself, and its text between any blanks, with any
character between date and time, in which a letter may stand for the offset of universal time. -/
inductive Timestamp.Spelling (t : Timestamp) : Datum → Prop
  | itself : t.Spelling (.time t)
  | text (separator : Char) (before after : String)
      (blankBefore : ∀ c ∈ before.toList, isBlank c = true)
      (blankAfter : ∀ c ∈ after.toList, isBlank c = true) :
      t.Spelling (.text (before ++ t.write separator ++ after))
  | zulu (separator letter : Char) (before text after : String)
      (blankBefore : ∀ c ∈ before.toList, isBlank c = true)
      (blankAfter : ∀ c ∈ after.toList, isBlank c = true)
      (universal : t.write separator = text ++ "+00:00") (either : letter = 'Z' ∨ letter = 'z') :
      t.Spelling (.text (before ++ text ++ letter.toString ++ after))

theorem seconds_endsInDigit (second micro : Nat) :
    EndsInDigit
      (padded 2 second ++ if micro = 0 then "" else "." ++ padded 6 micro).toList := by
  rw [String.toList_append]
  split
  · rw [String.toList_empty, List.append_nil]
    exact padded_endsInDigit 2 second
  · rw [String.toList_append]
    exact ((padded_endsInDigit 6 micro).append _).append _

theorem Reading.writeTime_endsInDigit (r : Reading) : EndsInDigit r.writeTime.toList := by
  rw [writeTime_toList]
  exact ((((seconds_endsInDigit _ _).cons _).append _).cons _).append _

theorem Offset.write_endsInDigit (o : Offset) : EndsInDigit o.write.toList := by
  by_cases whole : o.micros.natAbs % 60000000 = 0
  · rw [write_minutes whole]
    exact (((padded_endsInDigit _ _).cons _).append _).cons _
  · rw [write_seconds whole]
    exact (((((seconds_endsInDigit _ _).cons _).append _).cons _).append _).cons _

theorem Timestamp.write_endsInDigit (separator : Char) (t : Timestamp) :
    EndsInDigit (t.write separator).toList := by
  rw [write, String.toList_append]
  cases t.offset with
  | none =>
    rw [Option.map_none, Option.getD_none, String.toList_empty, List.append_nil,
      String.toList_append]
    exact t.clock.writeTime_endsInDigit.append _
  | some o => exact o.write_endsInDigit.append _

theorem Timestamp.write_head? (separator : Char) (t : Timestamp) :
    ∃ c, (t.write separator).toList.head? = some c ∧ c.isDigit = true := by
  obtain ⟨c, cs, digits, digit⟩ := exists_padded_cons 4 t.clock.date.year
  refine ⟨c, ?_, digit⟩
  rw [t.write_toList, t.clock.date.write_toList, digits]
  rfl

theorem Timestamp.write_ofUtc (separator : Char) (r : Reading) :
    (ofUtc r).write separator = (⟨r, none⟩ : Timestamp).write separator ++ "+00:00" := by
  have utc : Offset.utc.write = "+00:00" := by decide +kernel
  rw [write, write, ofUtc, Option.map_some, Option.getD_some, Option.map_none, Option.getD_none,
    String.append_empty, utc]

namespace Iso

theorem timestamp?_write (t : Timestamp) (separator : Char) :
    timestamp? (t.write separator).toList = some ⟨t.clock, t.offset.map Offset.readBack⟩ := by
  obtain ⟨c, last, digit⟩ := t.write_endsInDigit separator
  have plain : ¬ (some c = some 'Z' ∨ some c = some 'z') := by
    simp only [Option.some.injEq]
    rintro (rfl | rfl) <;> exact absurd digit (by decide)
  rw [timestamp?, last, if_neg plain, read?_write]

theorem timestamp?_letter (text : String) {letter : Char} (either : letter = 'Z' ∨ letter = 'z') :
    timestamp? (text.toList ++ [letter]) = read? (text ++ "+00:00").toList := by
  have last : (text.toList ++ [letter]).getLast? = some letter := List.getLast?_concat
  have zulu : some letter = some 'Z' ∨ some letter = some 'z' :=
    either.imp (congrArg some) (congrArg some)
  rw [timestamp?, last, if_pos zulu, List.dropLast_concat, String.toList_append]

end Iso

namespace Sighting

theorem ofText_of_read {text : String} {t : Timestamp}
    (read : Iso.timestamp? (trim text.toList) = some t) : ofText text = ofTimestamp t := by
  unfold ofText
  split
  · rename_i blank
    have none : Iso.timestamp? [] = none := rfl
    rw [blank, none] at read
    cases read
  · rw [read]

theorem ofDatum_eq_ofTimestamp {t : Timestamp} {d : Datum} (whole : t.Whole)
    (spelling : t.Spelling d) : ofDatum d = ofTimestamp t := by
  have same : (⟨t.clock, t.offset.map Offset.readBack⟩ : Timestamp) = t := by
    obtain ⟨clock, offset⟩ := t
    cases offset with
    | none => rfl
    | some o => rw [Option.map_some, Offset.readBack_of_dvd (whole o rfl)]
  cases spelling with
  | itself => rfl
  | text separator before after blankBefore blankAfter =>
    obtain ⟨first, start, firstDigit⟩ := t.write_head? separator
    obtain ⟨last, stop, lastDigit⟩ := t.write_endsInDigit separator
    refine ofText_of_read ?_
    rw [String.toList_append, String.toList_append,
      trim_blanks start stop (isBlank_of_isDigit firstDigit) (isBlank_of_isDigit lastDigit)
        blankBefore blankAfter, Iso.timestamp?_write, same]
  | zulu separator letter before text after blankBefore blankAfter universal either =>
    obtain ⟨first, start, firstDigit⟩ := t.write_head? separator
    -- What comes before the offset is not empty, since it begins with a digit.
    have begins : (text.toList ++ [letter]).head? = some first := by
      rw [universal, String.toList_append] at start
      cases chars : text.toList with
      | nil =>
        rw [chars] at start
        cases start
        exact absurd firstDigit (by decide)
      | cons c cs =>
        rw [chars] at start
        exact start
    have ends : (text.toList ++ [letter]).getLast? = some letter := List.getLast?_concat
    have ink : isBlank letter = false := by rcases either with rfl | rfl <;> rfl
    have trimmed := trim_blanks begins ends (isBlank_of_isDigit firstDigit) ink blankBefore
      blankAfter
    refine ofText_of_read ?_
    have chars : (before ++ text ++ letter.toString ++ after).toList =
        before.toList ++ (text.toList ++ [letter]) ++ after.toList := by simp
    rw [chars, trimmed, Iso.timestamp?_letter text either, ← universal, Iso.read?_write, same]

theorem ofTimestamp_eq_found {t : Timestamp} {r : Reading} (same : (r.micros : Int) = t.instant) :
    ofTimestamp t = found r := by
  rw [ofTimestamp, Timestamp.utc?, Reading.ofMicros?_eq_some_iff.mpr same]

theorem ofEpoch_eq_found_iff {micros : Int} {r : Reading} :
    ofEpoch micros = found r ↔ (r.micros : Int) = 719162 * 86400000000 + micros := by
  rw [← Reading.ofMicros?_eq_some_iff, ofEpoch, Reading.ofEpoch?]
  cases Reading.ofMicros? (719162 * 86400000000 + micros) <;> simp

theorem ofEpoch_cases (micros : Int) :
    ofEpoch micros = nothing ∨ ∃ r, ofEpoch micros = found r := by
  unfold ofEpoch
  split
  · exact Or.inl rfl
  · exact Or.inr ⟨_, rfl⟩

/-- All spellings of a timestamp say the same, which is its point in universal time. A whole number
says what lies so many seconds after the beginning of 1970, or nothing if that is outside of the
calendar, so that numbers are in the order of what they say. -/
theorem ofDatum_spelling :
    (∀ t : Timestamp, t.Whole → ∀ r : Reading, (r.micros : Int) = t.instant →
      ∀ d, t.Spelling d → ofDatum d = found r) ∧
    ∃ epoch, Reading.ofDate? ⟨1970, 1, 1⟩ 0 0 0 0 = some epoch ∧ ∀ n : Int,
      (∀ r : Reading, ofDatum (.int n) = found r ↔
        (r.micros : Int) = epoch.micros + n * 1000000) ∧
      ((∀ r : Reading, (r.micros : Int) ≠ epoch.micros + n * 1000000) →
        ofDatum (.int n) = nothing) ∧
      ∀ r, ofDatum (.int n) = found r →
        (∀ d, (Timestamp.ofUtc r).Spelling d → ofDatum d = found r) ∧
        ∀ m s, ofDatum (.int m) = found s → (n < m ↔ r < s) := by
  have spellings : ∀ t : Timestamp, t.Whole → ∀ r : Reading, (r.micros : Int) = t.instant →
      ∀ d, t.Spelling d → ofDatum d = found r := fun t whole r same d spelling => by
    rw [ofDatum_eq_ofTimestamp whole spelling, ofTimestamp_eq_found same]
  refine ⟨spellings, ⟨719162 * 86400000000, by decide⟩, by decide +kernel, fun n => ?_⟩
  have seconds : ∀ (n : Int) (r : Reading), ofDatum (.int n) = found r ↔
      (r.micros : Int) = 719162 * 86400000000 + n * 1000000 := fun n r => ofEpoch_eq_found_iff
  refine ⟨seconds n, fun outside => ?_, fun r found => ⟨fun d spelling => ?_, fun m s later => ?_⟩⟩
  · rcases ofEpoch_cases (n * 1000000) with none | ⟨r, found⟩
    · exact none
    · exact absurd ((seconds n r).mp found) (outside r)
  · have whole : (Timestamp.ofUtc r).Whole := by
      rintro o ⟨rfl⟩
      exact dvd_zero _
    exact spellings _ whole r (Timestamp.instant_ofUtc r).symm d spelling
  · have first := (seconds n r).mp found
    have second := (seconds m s).mp later
    change n < m ↔ r.micros < s.micros
    omega

/-- A clock that is hours ahead shows a leap day that has not begun in universal time. -/
def leapNight : Timestamp := ⟨⟨63844763415250000, by decide⟩, some ⟨20730000000, by decide⟩⟩

def leapEve : Reading := ⟨63844742685250000, by decide⟩

theorem ofDatum_spelling_leapNight :
    leapNight.Whole ∧ (leapEve.micros : Int) = leapNight.instant ∧
      Reading.ofDate? ⟨2024, 2, 28⟩ 18 44 45 250000 = some leapEve ∧
      ofDatum (.time leapNight) = found leapEve ∧
      ofDatum (.text "\u3000 2024-02-29T00:30:15.250000+05:45:30\n") = found leapEve ∧
      ofDatum (.text "2024-02-28 18:44:45.250000z\t") = found leapEve ∧
      ofDatum (.int 1709164800) = found ⟨63844761600000000, by decide⟩ ∧
      ofDatum (.int (10 ^ 20)) = nothing := by
  obtain ⟨spellings, epoch, begins, numbers⟩ := ofDatum_spelling
  have epochMicros : epoch.micros = 62135596800000000 := by
    have known : Reading.ofDate? ⟨1970, 1, 1⟩ 0 0 0 0 = some ⟨62135596800000000, by decide⟩ := by
      decide +kernel
    rw [known] at begins
    cases begins
    rfl
  have whole : leapNight.Whole := by
    rintro o ⟨rfl⟩
    decide
  have universal : (Timestamp.ofUtc leapEve).Whole := by
    rintro o ⟨rfl⟩
    decide
  have text := spellings leapNight whole leapEve (by decide) _
    (.text 'T' "\u3000 " "\n" (by simp [isBlank]) (by simp [isBlank]))
  have letter := spellings (.ofUtc leapEve) universal leapEve (by decide) _
    (.zulu ' ' 'z' "" _ "\t" (by simp) (by simp [isBlank])
      (Timestamp.write_ofUtc ' ' leapEve) (Or.inr rfl))
  have written : "\u3000 " ++ leapNight.write 'T' ++ "\n" =
      "\u3000 2024-02-29T00:30:15.250000+05:45:30\n" := by decide +kernel
  have written' : "" ++ (⟨leapEve, none⟩ : Timestamp).write ' ' ++ 'z'.toString ++ "\t" =
      "2024-02-28 18:44:45.250000z\t" := by decide +kernel
  rw [written] at text
  rw [written'] at letter
  have itself := spellings leapNight whole leapEve (by decide) _ .itself
  refine ⟨whole, by decide, by decide +kernel, itself, text, letter, ?_, ?_⟩
  · refine ((numbers 1709164800).1 _).mpr ?_
    rw [epochMicros]
    rfl
  · refine (numbers (10 ^ 20)).2.1 fun r same => ?_
    have inside := r.inside
    rw [epochMicros] at same
    omega

end Sighting

end Vouch
