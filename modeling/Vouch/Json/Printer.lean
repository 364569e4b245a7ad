import Vouch.Calendar.Written
import Vouch.Datum
import Vouch.Decimal.Shortest
import Vouch.Text.Quoted

namespace Vouch.Json

open Text

/-- A code unit of sixteen bits, written by its number. -/
def unitEscape (unit : Nat) : String := "\\u" ++ hex 4 unit

/-- One character of a text. Quote and backslash are escaped, five control characters have letters,
and all that is not printable ASCII is written by its number, as two units if it takes two. -/
def writeChar (c : Char) : String :=
  let n := c.toNat
  if c = '"' then "\\\""
  else if c = '\\' then "\\\\"
  else if c = '\n' then "\\n"
  else if c = '\r' then "\\r"
  else if c = '\t' then "\\t"
  else if n = 8 then "\\b"
  else if n = 12 then "\\f"
  else if 32 ≤ n ∧ n ≤ 126 then c.toString
  else if n < 0x10000 then unitEscape n
  else unitEscape (0xd800 + (n - 0x10000) / 0x400) ++ unitEscape (0xdc00 + (n - 0x10000) % 0x400)

def writeText (text : String) : String :=
  "\"" ++ String.join (text.toList.map writeChar) ++ "\""

def writeFloat (x : Float) : String :=
  match Decimal.parts x with
  | .nan => "NaN"
  | .infinite negative => if negative then "-Infinity" else "Infinity"
  | .finite .. => Decimal.writeDouble x

/-- The beginning of a line at a depth: two spaces for each enclosing value. -/
def lineStart (depth : Nat) : String :=
  "\n" ++ String.ofList (List.replicate (2 * depth) ' ')

mutual

/-- Writes a value over several lines, each item and each field on a line of its own. -/
def write (depth : Nat) : Datum → String
  | .null => "null"
  | .bool value => if value then "true" else "false"
  | .int value => toString value
  | .float value => writeFloat value
  | .text value => writeText value
  | .time value => writeText value.spaced
  | .list [] => "[]"
  | .list items => "[" ++ writeItems (depth + 1) items ++ lineStart depth ++ "]"
  | .tuple [] => "[]"
  | .tuple items => "[" ++ writeItems (depth + 1) items ++ lineStart depth ++ "]"
  | .record [] => "\x7b\x7d"
  | .record fields => "\x7b" ++ writeFields (depth + 1) fields ++ lineStart depth ++ "\x7d"

def writeItems (depth : Nat) : List Datum → String
  | [] => ""
  | [item] => lineStart depth ++ write depth item
  | item :: items => lineStart depth ++ write depth item ++ "," ++ writeItems depth items

def writeFields (depth : Nat) : List (String × Datum) → String
  | [] => ""
  | [(name, value)] => lineStart depth ++ writeText name ++ ": " ++ write depth value
  | (name, value) :: fields =>
    lineStart depth ++ writeText name ++ ": " ++ write depth value ++ "," ++
      writeFields depth fields

end

end Vouch.Json
