import Mathlib.Data.List.Basic
import Vouch.Json.Reader

namespace Vouch.Json

/-- Something is wrong at a place of the text. Other faults lie in the limits of what can be
read. -/
def Fault.IsLocated (fault : Fault) : Prop :=
  ∃ complaint position, fault = .located complaint position

theorem numericEscape_located {position : Nat} {cs : List Char} {fault : Fault}
    (failed : numericEscape position cs = .error fault) : fault.IsLocated := by
  unfold numericEscape at failed
  split at failed
  · cases failed
    exact ⟨_, _, rfl⟩
  · dsimp only at failed
    split at failed
    · split at failed
      · cases failed
        exact ⟨_, _, rfl⟩
      · split at failed <;> cases failed
    · cases failed

theorem textFrom_located {start position : Nat} {before cs : List Char} {fault : Fault}
    (failed : textFrom start position before cs = .error fault) : fault.IsLocated := by
  fun_induction textFrom start position before cs with
  | case2 => cases failed
  | case4 position before cs other escape =>
    cases failed
    exact numericEscape_located escape
  | case5 position before cs c width escape ih => exact ih failed
  | case7 position before letter cs other c escape ih => exact ih failed
  | case9 position before c cs quote end_ u letter printable ih => exact ih failed
  | _ =>
    cases failed
    exact ⟨_, _, rfl⟩

/-- The digits of a whole number end here: there is neither another digit nor a fraction nor an
exponent. -/
structure EndsWhole (after : List Char) : Prop where
  digit : ∀ c rest, after = c :: rest → c.isDigit = false
  fraction : ∀ c rest, after = '.' :: c :: rest → c.isDigit = false
  exponent : ∀ e sign c rest, after = e :: (sign ++ c :: rest) → e = 'e' ∨ e = 'E' →
    sign = [] ∨ sign = ['+'] ∨ sign = ['-'] → c.isDigit = false

/-- A text begins with a whole number of so many digits, which are too many. -/
def LongNumber (count : Nat) (cs : List Char) : Prop :=
  ∃ sign digits after, cs = sign ++ (digits ++ after) ∧ (sign = [] ∨ sign = ['-']) ∧
    digits.length = count ∧ Text.digitLimit < count ∧ (∀ c ∈ digits, c.isDigit = true) ∧
    digits.head? ≠ some '0' ∧ EndsWhole after

theorem takeWhile_isDigit_eq_nil_iff {cs : List Char} :
    cs.takeWhile Char.isDigit = [] ↔ ∀ c rest, cs = c :: rest → c.isDigit = false := by
  cases cs with
  | nil => simp
  | cons c rest =>
    cases digit : c.isDigit <;> simp [digit]

theorem fractionDigits_eq_nil_iff {cs : List Char} :
    fractionDigits cs = [] ↔ ∀ c rest, cs = '.' :: c :: rest → c.isDigit = false := by
  unfold fractionDigits
  split
  · rw [takeWhile_isDigit_eq_nil_iff]
    simp
  · rename_i other
    refine iff_of_true rfl fun c rest same => ?_
    exact absurd same (other _)

/-- After its letter and its sign, an exponent has digits. -/
theorem exponentPart_cons_eq_none_iff {e : Char} {cs : List Char} (mark : e = 'e' ∨ e = 'E') :
    exponentPart (e :: cs) = none ↔
      (if cs.head? = some '-' ∨ cs.head? = some '+' then cs.tail else cs).takeWhile Char.isDigit =
        [] := by
  rw [exponentPart, if_pos mark]
  dsimp only
  split <;> simp_all

theorem exponentPart_eq_none_iff {cs : List Char} :
    exponentPart cs = none ↔ ∀ e sign c rest, cs = e :: (sign ++ c :: rest) → e = 'e' ∨ e = 'E' →
      sign = [] ∨ sign = ['+'] ∨ sign = ['-'] → c.isDigit = false := by
  cases cs with
  | nil => simp [exponentPart]
  | cons e cs =>
    by_cases mark : e = 'e' ∨ e = 'E'
    · rw [exponentPart_cons_eq_none_iff mark, takeWhile_isDigit_eq_nil_iff]
      by_cases signed : cs.head? = some '-' ∨ cs.head? = some '+'
      · rw [if_pos signed]
        constructor
        · rintro digits e sign c rest ⟨⟩ - (rfl | rfl | rfl)
          · rcases signed with signed | signed <;> cases signed <;> rfl
          · exact digits c rest rfl
          · exact digits c rest rfl
        · intro digits c rest same
          cases cs with
          | nil => simp at signed
          | cons s tail =>
            refine digits e [s] c rest (congrArg (e :: s :: ·) same) mark ?_
            rcases signed with signed | signed <;> cases signed <;> simp
      · rw [if_neg signed]
        constructor
        · rintro digits e sign c rest ⟨⟩ - (rfl | rfl | rfl)
          · exact digits c rest rfl
          · exact absurd (Or.inr rfl) signed
          · exact absurd (Or.inl rfl) signed
        · rintro digits c rest rfl
          exact digits e [] c rest rfl mark (Or.inl rfl)
    · rw [exponentPart, if_neg mark]
      refine iff_of_true rfl ?_
      rintro e sign c rest ⟨⟩ mark'
      exact absurd mark' mark

theorem endsWhole_dropWhile {body : List Char}
    (fraction : fractionDigits (body.dropWhile Char.isDigit) = [])
    (exponent : exponentPart (body.dropWhile Char.isDigit) = none) :
    EndsWhole (body.dropWhile Char.isDigit) := by
  refine ⟨?_, fractionDigits_eq_nil_iff.mp fraction, exponentPart_eq_none_iff.mp exponent⟩
  intro c rest same
  have head := List.head?_dropWhile_not Char.isDigit body
  rwa [same] at head

/-- A text without the sign that it may begin with. -/
def unsigned (cs : List Char) : List Char := if cs.head? = some '-' then cs.tail else cs

theorem exists_sign (cs : List Char) :
    ∃ sign, cs = sign ++ unsigned cs ∧ (sign = [] ∨ sign = ['-']) := by
  by_cases negative : cs.head? = some '-'
  · rw [unsigned, if_pos negative]
    exact ⟨['-'], (List.cons_head?_tail negative).symm, Or.inr rfl⟩
  · rw [unsigned, if_neg negative]
    exact ⟨[], rfl, Or.inl rfl⟩

/-- The digits that a text begins with. A zero stands alone. -/
def leadingDigits (body : List Char) : List Char :=
  if body.head? = some '0' then ['0'] else body.takeWhile Char.isDigit

theorem number?_eq_error_iff {cs digits after : List Char} {fault : Fault}
    (leading : leadingDigits (unsigned cs) = digits)
    (left : (unsigned cs).drop digits.length = after) :
    number? cs = .error fault ↔ Text.digitLimit < digits.length ∧ fractionDigits after = [] ∧
      exponentPart after = none ∧ fault = .tooManyDigits digits.length := by
  unfold leadingDigits unsigned at leading
  unfold unsigned at left
  simp only [number?, leading, left]
  by_cases empty : digits = []
  · simp [empty]
  rw [if_neg empty]
  by_cases fraction : fractionDigits after = []
  · cases exponent : exponentPart after with
    | none =>
      by_cases long : Text.digitLimit < digits.length <;>
        simp [fraction, exponent, long, eq_comm]
    | some found => simp [fraction, exponent]
  · cases exponent : exponentPart (after.drop ((fractionDigits after).length + 1)) <;>
      simp [fraction, exponent]

/-- Only a whole number can be too long. -/
theorem LongNumber.of_number? {cs : List Char} {fault : Fault}
    (failed : number? cs = .error fault) :
    ∃ count, fault = .tooManyDigits count ∧ LongNumber count cs := by
  obtain ⟨exceeds, fraction, exponent, rfl⟩ := (number?_eq_error_iff rfl rfl).mp failed
  obtain ⟨sign, whole, signs⟩ := exists_sign cs
  generalize unsigned cs = body at *
  have leading : body.head? ≠ some '0' := by
    intro zero
    rw [leadingDigits, if_pos zero] at exceeds
    exact absurd exceeds (by decide)
  have taken : leadingDigits body = body.takeWhile Char.isDigit := if_neg leading
  have parts : leadingDigits body ++ body.dropWhile Char.isDigit = body := by
    rw [taken, List.takeWhile_append_dropWhile]
  have left : body.drop (leadingDigits body).length = body.dropWhile Char.isDigit :=
    calc body.drop (leadingDigits body).length
        = (leadingDigits body ++ body.dropWhile Char.isDigit).drop (leadingDigits body).length := by
          rw [parts]
      _ = body.dropWhile Char.isDigit := List.drop_left
  have empty : leadingDigits body ≠ [] := List.ne_nil_of_length_pos (Nat.zero_lt_of_lt exceeds)
  have head : (leadingDigits body).head? = body.head? :=
    (List.head?_append_of_ne_nil _ empty).symm.trans (congrArg List.head? parts)
  rw [left] at fraction exponent
  have digits : ∀ c ∈ leadingDigits body, c.isDigit = true := fun c member =>
    List.all_eq_true.mp List.all_takeWhile c (taken ▸ member)
  exact ⟨_, rfl, sign, leadingDigits body, _, by rw [parts, whole], signs, rfl, exceeds, digits,
    head ▸ leading, endsWhole_dropWhile fraction exponent⟩

theorem LongNumber.number?_eq {count : Nat} {cs : List Char} (long : LongNumber count cs) :
    number? cs = .error (.tooManyDigits count) := by
  obtain ⟨sign, digits, after, rfl, signs, rfl, exceeds, all, zero, ends⟩ := long
  have empty : digits ≠ [] := by
    rintro rfl
    cases exceeds
  have rest : unsigned (sign ++ (digits ++ after)) = digits ++ after := by
    rcases signs with rfl | rfl
    · refine if_neg fun minus => ?_
      rw [List.nil_append, List.head?_append_of_ne_nil _ empty] at minus
      exact absurd (all '-' (List.mem_of_mem_head? minus)) (by decide)
    · rfl
  have leading : leadingDigits (digits ++ after) = digits := by
    have head : (digits ++ after).head? ≠ some '0' := by
      rwa [List.head?_append_of_ne_nil _ empty]
    rw [leadingDigits, if_neg head, List.takeWhile_append_of_pos all,
      takeWhile_isDigit_eq_nil_iff.mpr ends.digit, List.append_nil]
  rw [← rest] at leading
  refine (number?_eq_error_iff leading ?_).mpr ⟨exceeds,
    fractionDigits_eq_nil_iff.mpr ends.fraction, exponentPart_eq_none_iff.mpr ends.exponent, rfl⟩
  rw [rest, List.drop_left]

theorem LongNumber.exists_digit {count : Nat} {cs : List Char} (long : LongNumber count cs) :
    ∃ digit rest, digit.isDigit = true ∧ (cs = digit :: rest ∨ cs = '-' :: digit :: rest) := by
  obtain ⟨sign, digits, after, rfl, signs, rfl, exceeds, all, _, _⟩ := long
  cases digits with
  | nil => cases exceeds
  | cons digit digits =>
    refine ⟨digit, digits ++ after, all digit List.mem_cons_self, ?_⟩
    rcases signs with rfl | rfl
    · exact Or.inl rfl
    · exact Or.inr rfl

theorem ne_of_isDigit {c digit : Char} (isDigit : digit.isDigit = true)
    (other : c.isDigit = false) : digit ≠ c := by
  rintro rfl
  rw [isDigit] at other
  cases other

theorem LongNumber.word?_eq_none {count : Nat} {cs : List Char} (long : LongNumber count cs) :
    word? cs = none := by
  obtain ⟨digit, rest, isDigit, begins⟩ := long.exists_digit
  have letter : ∀ c : Char, c.isDigit = false → (c == digit) = false := fun c other =>
    beq_eq_false_iff_ne.mpr (ne_of_isDigit isDigit other).symm
  have absent : words.find? (fun w => w.1.toList.isPrefixOf cs) = none := by
    rw [List.find?_eq_none]
    intro w member
    simp only [words, List.mem_cons, List.not_mem_nil, or_false] at member
    rcases member with rfl | rfl | rfl | rfl | rfl | rfl <;> rcases begins with rfl | rfl <;>
      simp [List.isPrefixOf, letter]
  rw [word?, absent]
  rfl

theorem lexeme_eq_error_iff {position : Nat} {cs : List Char} {fault : Fault}
    (limit : ¬ fault.IsLocated) :
    lexeme position cs = .error fault ↔
      ∃ count, fault = .tooManyDigits count ∧ LongNumber count cs := by
  constructor
  · intro failed
    unfold lexeme at failed
    split at failed
    · split at failed
      · rename_i text
        cases failed
        exact absurd (textFrom_located text) limit
      · cases failed
    · split at failed
      · cases failed
      · split at failed
        · rename_i number
          cases failed
          exact LongNumber.of_number? number
        · cases failed
        · cases failed
          exact absurd ⟨_, _, rfl⟩ limit
  · rintro ⟨count, rfl, long⟩
    unfold lexeme
    split
    · obtain ⟨digit, rest, isDigit, begins⟩ := long.exists_digit
      rcases begins with same | same <;> cases same
      cases isDigit
    · rw [long.word?_eq_none, long.number?_eq]

def Enclosure.opening : Enclosure → Char
  | array => '['
  | object => '\x7b'

/-- A value that begins a text goes beyond what can be read: it is too long a number, or it opens an
enclosure where as many as possible are open. -/
inductive Exceeds (depth : Nat) (cs : List Char) : Fault → Prop
  | digits {count : Nat} : LongNumber count cs → Exceeds depth cs (.tooManyDigits count)
  | depth {enclosure : Enclosure} {rest : List Char} : depthLimit ≤ depth →
      cs = enclosure.opening :: rest → Exceeds depth cs (.tooDeep enclosure)

theorem Exceeds.not_isLocated {depth : Nat} {cs : List Char} {fault : Fault}
    (exceeds : Exceeds depth cs fault) : ¬ fault.IsLocated := by
  rintro ⟨_, _, rfl⟩
  cases exceeds

theorem Exceeds.exists_head {depth : Nat} {cs : List Char} {fault : Fault}
    (exceeds : Exceeds depth cs fault) :
    ∃ c rest, cs = c :: rest ∧ isSpace c = false ∧ c ≠ ']' := by
  cases exceeds with
  | digits long =>
    obtain ⟨digit, rest, isDigit, rfl | rfl⟩ := long.exists_digit
    · have other := fun c => @ne_of_isDigit c digit isDigit
      exact ⟨digit, rest, rfl, by simp [isSpace, other], other ']' rfl⟩
    · exact ⟨_, _, rfl, rfl, by decide⟩
  | @depth enclosure rest full same =>
    refine ⟨_, rest, same, ?_, ?_⟩ <;> cases enclosure <;> decide

theorem begin_eq_error_iff {stack : List Open} {position : Nat} {cs : List Char} {fault : Fault}
    (limit : ¬ fault.IsLocated) :
    Progress.begin stack position cs = .error fault ↔ Exceeds stack.length cs fault := by
  constructor
  · intro failed
    unfold Progress.begin at failed
    split at failed
    · split at failed
      · cases failed
      · rename_i full
        cases failed
        exact .depth (Nat.le_of_not_lt full) rfl
    · split at failed
      · cases failed
      · rename_i full
        cases failed
        exact .depth (Nat.le_of_not_lt full) rfl
    · split at failed
      · rename_i value
        cases failed
        obtain ⟨count, rfl, long⟩ := (lexeme_eq_error_iff limit).mp value
        exact .digits long
      · cases failed
  · rintro (long | ⟨full, rfl⟩)
    · obtain ⟨digit, rest, isDigit, begins⟩ := long.exists_digit
      have bracket := ne_of_isDigit isDigit (c := '[') rfl
      have brace := ne_of_isDigit isDigit (c := '\x7b') rfl
      have value : lexeme position cs = .error _ :=
        (lexeme_eq_error_iff limit).mpr ⟨_, rfl, long⟩
      rw [Progress.begin, value]
      · rintro tail rfl
        rcases begins with same | same <;> cases same
        exact bracket rfl
      · rintro tail rfl
        rcases begins with same | same <;> cases same
        exact brace rfl
    · rename_i enclosure rest
      cases enclosure <;> exact if_neg (Nat.not_lt_of_le full)

/-- A value may be what comes next. -/
def Next.TakesValue (next : Next) : Prop := next = .value ∨ next = .firstItem

theorem field_located {stack : List Open} {position : Nat} {cs : List Char} {fault : Fault}
    (failed : Progress.field stack position cs = .error fault) : fault.IsLocated := by
  unfold Progress.field at failed
  split at failed
  · split at failed
    · rename_i text
      cases failed
      exact textFrom_located text
    · cases failed
  · cases failed
    exact ⟨_, _, rfl⟩

/-- A step fails at a limit only where a value may come next and goes beyond it. -/
theorem step_eq_error_iff {progress : Progress} {position : Nat} {cs : List Char} {fault : Fault}
    (limit : ¬ fault.IsLocated) :
    progress.step position cs = .error fault ↔ ∃ stack next, progress = .inside stack next ∧
      next.TakesValue ∧ Exceeds stack.length cs fault := by
  constructor
  · fun_cases Progress.step position cs progress with
    | case7 | case8 => exact fun failed => absurd (field_located failed) limit
    | case14 stack next item firstName name colon field close =>
      intro failed
      have begun := (begin_eq_error_iff limit).mp failed
      cases next with
      | value => exact ⟨stack, _, rfl, Or.inl rfl, begun⟩
      | firstItem => exact ⟨stack, _, rfl, Or.inr rfl, begun⟩
      | _ => contradiction
    | case2 | case3 | case4 | case6 | case9 | case11 | case12 => exact nofun
    | _ =>
      rintro ⟨⟩
      exact absurd ⟨_, _, rfl⟩ limit
  · rintro ⟨stack, next, rfl, takes, exceeds⟩
    obtain ⟨c, rest, rfl, _, other⟩ := exceeds.exists_head
    have begun : Progress.begin stack position (c :: rest) = .error fault :=
      (begin_eq_error_iff limit).mpr exceeds
    rcases takes with rfl | rfl
    · exact begun
    · simpa [Progress.step, other] using begun

/-- The places that reading a text comes to, with what is left of the text there. White space is
passed, and anything else makes a step. A text with a byte order mark is not read. -/
inductive Comes (text : List Char) : Nat → Progress → List Char → Prop
  | start : text.head? ≠ some '\ufeff' → Comes text 0 (.inside [] .value) text
  | space {position : Nat} {progress : Progress} {c : Char} {rest : List Char} :
      Comes text position progress (c :: rest) → isSpace c = true →
      Comes text (position + 1) progress rest
  | step {position width : Nat} {progress next : Progress} {c : Char} {rest : List Char} :
      Comes text position progress (c :: rest) → isSpace c = false →
      progress.step position (c :: rest) = .ok (next, width) →
      Comes text (position + 1 + (width - 1)) next (rest.drop (width - 1))

/-- From every place on, reading gives what it gives in all. -/
theorem Comes.read_eq {text rest : List Char} {position : Nat} {progress : Progress}
    (comes : Comes text position progress rest) : read text = readFrom position progress rest := by
  induction comes with
  | start bare => exact if_neg bare
  | space _ blank ih => rw [ih, readFrom, if_pos blank]
  | step _ solid stepped ih =>
    rw [ih, readFrom, if_neg (Bool.eq_false_iff.mp solid)]
    simp only [stepped]

theorem finish_located {progress : Progress} {position : Nat} {fault : Fault}
    (failed : progress.finish position = .error fault) : fault.IsLocated := by
  unfold Progress.finish at failed
  split at failed
  · cases failed
  · split at failed <;> cases failed <;> exact ⟨_, _, rfl⟩

/-- A text goes beyond a limit if reading comes to a place where a value may be and goes beyond
it. -/
def GoesBeyond (text : List Char) (fault : Fault) : Prop :=
  ∃ position stack next rest, Comes text position (.inside stack next) rest ∧ next.TakesValue ∧
    Exceeds stack.length rest fault

theorem Comes.goesBeyond {text rest : List Char} {position : Nat} {progress : Progress}
    {fault : Fault} (limit : ¬ fault.IsLocated) (comes : Comes text position progress rest)
    (failed : readFrom position progress rest = .error fault) : GoesBeyond text fault := by
  fun_induction readFrom position progress rest with
  | case1 => exact absurd (finish_located failed) limit
  | case2 position progress c cs blank ih => exact ih (comes.space blank) failed
  | case3 position progress c cs solid stopped broken =>
    cases failed
    obtain ⟨stack, next, rfl, takes, exceeds⟩ := (step_eq_error_iff limit).mp broken
    exact ⟨_, _, _, _, comes, takes, exceeds⟩
  | case4 position progress c cs solid next width stepped ih =>
    exact ih (comes.step (Bool.eq_false_iff.mpr solid) stepped) failed

/-- Reading fails at a limit just for those texts that go beyond it. -/
theorem read_eq_error_iff {text : List Char} {fault : Fault} (limit : ¬ fault.IsLocated) :
    read text = .error fault ↔ GoesBeyond text fault := by
  constructor
  · intro failed
    by_cases mark : text.head? = some '\ufeff'
    · rw [read, if_pos mark] at failed
      cases failed
      exact absurd ⟨_, _, rfl⟩ limit
    · rw [read, if_neg mark] at failed
      exact (Comes.start mark).goesBeyond limit failed
  · rintro ⟨position, stack, next, rest, comes, takes, exceeds⟩
    obtain ⟨c, tail, rfl, solid, _⟩ := exceeds.exists_head
    have stopped : (Progress.inside stack next).step position (c :: tail) = .error fault :=
      (step_eq_error_iff limit).mpr ⟨stack, next, rfl, takes, exceeds⟩
    rw [comes.read_eq, readFrom, if_neg (Bool.eq_false_iff.mp solid)]
    simp only [stopped]

/-- Where nothing goes beyond the limits, the text itself is at fault if it cannot be read. -/
theorem read_located_iff {text : List Char} :
    (∀ fault, read text = .error fault → fault.IsLocated) ↔ ∀ fault, ¬ GoesBeyond text fault := by
  constructor
  · rintro located fault beyond
    have limit : ¬ fault.IsLocated := by
      obtain ⟨_, _, _, _, _, _, exceeds⟩ := beyond
      exact exceeds.not_isLocated
    exact limit (located fault ((read_eq_error_iff limit).mpr beyond))
  · intro within fault failed
    by_contra limit
    exact within fault ((read_eq_error_iff limit).mp failed)

end Vouch.Json
