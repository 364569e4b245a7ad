import Vouch.Calendar.Iso
import Vouch.Datum
import Vouch.Decimal.Double
import Vouch.Text.Blank

namespace Vouch

/-- A point in time was found whose reading of universal time is outside of the calendar. -/
structure OutsideCalendar where
  deriving DecidableEq

def OutsideCalendar.message (_ : OutsideCalendar) : String := "date value out of range"

/-- What a value says about a point in time: nothing, something that cannot be read, a point whose
reading of universal time is outside of the calendar, or a reading. -/
inductive Sighting where
  | nothing
  | unreadable (text : String)
  | outside
  | found (reading : Reading)
  deriving DecidableEq

namespace Sighting

def ofTimestamp (t : Timestamp) : Sighting :=
  match t.utc? with
  | none => outside
  | some reading => found reading

/-- Microseconds since 1970. Outside of the calendar they say nothing. -/
def ofEpoch (micros : Int) : Sighting :=
  match Reading.ofEpoch? micros with
  | none => nothing
  | some reading => found reading

/-- The whole microseconds in a number of seconds. The fraction of a second is multiplied as a
double. What it gives is rounded to the nearest integer, a half to the even one. -/
def microsOfSeconds? (seconds : Float) : Option Int :=
  match Decimal.parts seconds with
  | .finite negative mantissa exponent =>
    let (numerator, denominator) := Decimal.scaled mantissa 2 exponent
    let whole := numerator / denominator
    let fraction := if numerator % denominator = 0 then 0.0 else seconds.abs - Float.ofNat whole
    let micros := match Decimal.parts (fraction * 1000000.0) with
      | .finite _ mantissa exponent =>
        let (numerator, denominator) := Decimal.scaled mantissa 2 exponent
        Decimal.roundHalfEven numerator denominator
      | _ => 0
    let size : Int := (whole * 1000000 + micros : Nat)
    some (if negative then -size else size)
  | _ => none

/-- A text, blanks at its ends apart. -/
def ofText (text : String) : Sighting :=
  match Text.trim text.toList with
  | [] => nothing
  | cs =>
    match Iso.timestamp? cs with
    | none => unreadable text
    | some t => ofTimestamp t

/-- Points in time, texts and numbers of seconds since 1970 say when something was. -/
def ofDatum : Datum → Sighting
  | .time t => ofTimestamp t
  | .int seconds => ofEpoch (seconds * 1000000)
  | .float seconds =>
    match microsOfSeconds? seconds with
    | none => nothing
    | some micros => ofEpoch micros
  | .text text => ofText text
  | _ => nothing

/-- The first reading found. Looking for it ends with a point outside of the calendar. -/
def first? : List Sighting → Except OutsideCalendar (Option Reading)
  | [] => .ok none
  | found reading :: _ => .ok (some reading)
  | outside :: _ => .error ⟨⟩
  | _ :: rest => first? rest

/-- The texts that could not be read before the search ended. -/
def unread : List Sighting → List String
  | unreadable text :: rest => text :: unread rest
  | nothing :: rest => unread rest
  | _ => []

end Sighting

end Vouch
