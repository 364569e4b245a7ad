import Vouch.Calendar.Date

namespace Vouch

/-- The reading of a calendar clock between the beginning of the year 1 and the end of the year
9999, as the number of microseconds since the beginning. -/
structure Reading where
  micros : Nat
  inside : micros < 3652059 * 86400000000
  deriving DecidableEq

namespace Reading

instance : LT Reading := ⟨fun a b => a.micros < b.micros⟩

instance : LE Reading := ⟨fun a b => a.micros ≤ b.micros⟩

instance (a b : Reading) : Decidable (a < b) :=
  inferInstanceAs (Decidable (a.micros < b.micros))

instance (a b : Reading) : Decidable (a ≤ b) :=
  inferInstanceAs (Decidable (a.micros ≤ b.micros))

def ofMicros? (micros : Int) : Option Reading :=
  if h : 0 ≤ micros ∧ micros < 3652059 * 86400000000 then some ⟨micros.toNat, by omega⟩ else none

/-- The reading so many microseconds after the beginning of 1970. -/
def ofEpoch? (micros : Int) : Option Reading :=
  ofMicros? (719162 * 86400000000 + micros)

/-- The reading on a day, given by its number, at a time of that day. -/
def ofDay? (day hour minute second micro : Nat) : Option Reading :=
  if hour < 24 ∧ minute < 60 ∧ second < 60 ∧ micro < 1000000 then
    ofMicros? (day * 86400000000 + ((hour * 60 + minute) * 60 + second) * 1000000 + micro : Nat)
  else none

/-- The reading on a day that exists, at a time of that day. -/
def ofDate? (date : Date) (hour minute second micro : Nat) : Option Reading :=
  if date.Valid then ofDay? date.number hour minute second micro else none

def date (r : Reading) : Date := Date.ofNumber (r.micros / 86400000000)

def hour (r : Reading) : Nat := r.micros / 3600000000 % 24

def minute (r : Reading) : Nat := r.micros / 60000000 % 60

def second (r : Reading) : Nat := r.micros / 1000000 % 60

def micro (r : Reading) : Nat := r.micros % 1000000

end Reading

end Vouch
