import Vouch.Calendar.Timestamp
import Vouch.Text.Digit

namespace Vouch

open Text

/-- Hours, minutes and seconds. -/
def Reading.writeSeconds (r : Reading) : String :=
  padded 2 r.hour ++ ":" ++ padded 2 r.minute ++ ":" ++ padded 2 r.second

/-- Hours, minutes and seconds, and microseconds if there are any. -/
def Reading.writeTime (r : Reading) : String :=
  r.writeSeconds ++ if r.micro = 0 then "" else "." ++ padded 6 r.micro

def Date.write (d : Date) : String :=
  padded 4 d.year ++ "-" ++ padded 2 d.month ++ "-" ++ padded 2 d.day

/-- Sign, hours and minutes. Seconds and microseconds are written only as far as they are
needed. -/
def Offset.write (o : Offset) : String :=
  let micros := o.micros.natAbs
  let seconds := micros / 1000000
  let sign := if o.micros < 0 then "-" else "+"
  let fine := if micros % 1000000 = 0 then "" else "." ++ padded 6 (micros % 1000000)
  let tail := if micros % 60000000 = 0 then "" else ":" ++ padded 2 (seconds % 60) ++ fine
  sign ++ padded 2 (seconds / 3600) ++ ":" ++ padded 2 (seconds / 60 % 60) ++ tail

/-- Date, separator, time, and the offset if it is known. -/
def Timestamp.write (separator : Char) (t : Timestamp) : String :=
  t.clock.date.write ++ separator.toString ++ t.clock.writeTime ++
    (t.offset.map Offset.write).getD ""

/-- The interchange form, in which a `T` separates date and time. -/
def Timestamp.iso (t : Timestamp) : String := t.write 'T'

/-- The form for readers, in which a space separates date and time. -/
def Timestamp.spaced (t : Timestamp) : String := t.write ' '

end Vouch
