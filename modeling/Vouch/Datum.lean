import Vouch.Calendar.Timestamp

namespace Vouch

/-- A loose value, as it stands in a credential before anything is known about its shape. The
fields of a record are kept in the order in which they were written. -/
inductive Datum where
  | null
  | bool (value : Bool)
  | int (value : Int)
  | float (value : Float)
  | text (value : String)
  | time (value : Timestamp)
  | list (items : List Datum)
  | tuple (items : List Datum)
  | record (fields : List (String × Datum))
  deriving Inhabited

/-- The value of the first field of a name. -/
def field? (name : String) (fields : List (String × Datum)) : Option Datum :=
  (fields.find? (·.1 == name)).map (·.2)

/-- Sets a field. A field that is there already keeps its place and changes its value. -/
def setField (name : String) (value : Datum) (fields : List (String × Datum)) :
    List (String × Datum) :=
  if fields.any (·.1 == name) then
    fields.map fun f => if f.1 == name then (name, value) else f
  else fields ++ [(name, value)]

namespace Datum

/-- The name of the kind of a value, as messages give it. -/
def kindName : Datum → String
  | null => "NoneType"
  | bool _ => "bool"
  | int _ => "int"
  | float _ => "float"
  | text _ => "str"
  | time _ => "datetime"
  | list _ => "list"
  | tuple _ => "tuple"
  | record _ => "dict"

/-- Values that say nothing: absent, false, zero and empty ones. -/
def isVoid : Datum → Bool
  | null => true
  | bool value => !value
  | int value => value == 0
  | float value => value == 0
  | text value => value == ""
  | time _ => false
  | list items => items.isEmpty
  | tuple items => items.isEmpty
  | record fields => fields.isEmpty

end Datum

end Vouch
