import Vouch.Calendar.Written
import Vouch.Datum
import Vouch.Decimal.Shortest
import Vouch.Text.Digit
import Vouch.Text.Quoted

namespace Vouch

open Text

/-- A point in time inside of a container: the parts of the reading down to the last one that is
needed, minutes at least, and the offset in days and seconds, of which only the days can be
negative. -/
def Timestamp.display (t : Timestamp) : String :=
  let r := t.clock
  let fine :=
    if r.micro ≠ 0 then [r.second, r.micro] else if r.second ≠ 0 then [r.second] else []
  let parts := [r.date.year, r.date.month, r.date.day, r.hour, r.minute] ++ fine
  let zone := match t.offset with
    | none => ""
    | some offset =>
      if offset.micros = 0 then ", tzinfo=datetime.timezone.utc"
      else
        let days := offset.micros.fdiv 86400000000
        let rest := (offset.micros.fmod 86400000000).toNat
        let seconds := rest / 1000000
        let micros := rest % 1000000
        let spans := (if days = 0 then [] else ["days=" ++ toString days]) ++
          (if seconds = 0 then [] else ["seconds=" ++ toString seconds]) ++
          (if micros = 0 then [] else ["microseconds=" ++ toString micros])
        ", tzinfo=datetime.timezone(datetime.timedelta(" ++ ", ".intercalate spans ++ "))"
  "datetime.datetime(" ++ ", ".intercalate (parts.map toString) ++ zone ++ ")"

/-- Why a value has no text. -/
inductive Unwritten where
  | tooManyDigits
  | tooDeep
  deriving DecidableEq

def Unwritten.message : Unwritten → String
  | .tooManyDigits =>
    "Exceeds the limit (" ++ toString digitLimit ++
      " digits) for integer string conversion; use sys.set_int_max_str_digits() to increase the limit"
  | .tooDeep => "maximum recursion depth exceeded while getting the repr of an object"

namespace Datum

/-- How many values may be enclosed in one another if they are to be displayed. It is what there is
room for at most: whatever else is under way where a value is displayed takes from it. -/
def nestingLimit : Nat := 1000

/-- A value as it stands inside of a container, where there is room for so many values enclosed in
one another: texts are quoted. The first part that cannot be written settles what is wrong. -/
def quoted : Nat → Datum → Except Unwritten String
  | 0, _ => .error .tooDeep
  | room + 1, value =>
    match value with
    | null => .ok "None"
    | bool value => .ok (if value then "True" else "False")
    | int value =>
      if digitBound ≤ value.natAbs then .error .tooManyDigits else .ok (toString value)
    | float value => .ok (Decimal.writeDouble value)
    | text value => .ok (Text.quoted value)
    | time value => .ok value.display
    | list items =>
      (items.mapM (quoted room)).map fun texts => "[" ++ ", ".intercalate texts ++ "]"
    | tuple items =>
      (items.mapM (quoted room)).map fun
        | [single] => "(" ++ single ++ ",)"
        | texts => "(" ++ ", ".intercalate texts ++ ")"
    | record fields =>
      (fields.mapM fun f => (quoted room f.2).map fun text => Text.quoted f.1 ++ ": " ++ text).map
        fun texts => "\x7b" ++ ", ".intercalate texts ++ "\x7d"

/-- The text that a value stands for, if it has one. A text is itself. -/
def display : Datum → Except Unwritten String
  | text value => .ok value
  | time value => .ok value.spaced
  | value => value.quoted nestingLimit

end Datum

end Vouch
