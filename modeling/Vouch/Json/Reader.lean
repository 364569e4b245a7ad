import Vouch.Json.Lexeme
import Vouch.Text.Line

namespace Vouch.Json

/-- A value that is still open: an array with the items read so far, the last one first, or an
object with its fields so far and the name of the field that comes next. -/
inductive Open where
  | array (items : List Datum)
  | object (fields : List (String × Datum)) (name : String)

/-- What may come next in the innermost open value. -/
inductive Next where
  | value
  | firstItem
  | afterItem
  | firstName
  | name
  | colon
  | afterField

/-- How far reading has come: the whole value is there, or some values are open, the innermost
first. -/
inductive Progress where
  | done (value : Datum)
  | inside (stack : List Open) (next : Next)

/-- How deeply values may be enclosed at most. Whatever else is under way where a text is read takes
from it. -/
def depthLimit : Nat := 1000

/-- A value is complete and goes to where it belongs. -/
def Progress.complete (value : Datum) : List Open → Progress
  | [] => .done value
  | .array items :: stack => .inside (.array (value :: items) :: stack) .afterItem
  | .object fields name :: stack =>
    .inside (.object (setField name value fields) "" :: stack) .afterField

/-- The innermost open value is closed. -/
def Progress.close : List Open → Progress
  | [] => .inside [] .value
  | .array items :: stack => .complete (.list items.reverse) stack
  | .object fields _ :: stack => .complete (.record fields) stack

/-- A value begins. -/
def Progress.begin (stack : List Open) (position : Nat) (cs : List Char) :
    Except Fault (Progress × Nat) :=
  match cs with
  | '[' :: _ =>
    if stack.length < depthLimit then .ok (.inside (.array [] :: stack) .firstItem, 1)
    else .error (.tooDeep .array)
  | '{' :: _ =>
    if stack.length < depthLimit then .ok (.inside (.object [] "" :: stack) .firstName, 1)
    else .error (.tooDeep .object)
  | _ =>
    match lexeme position cs with
    | .error fault => .error fault
    | .ok (value, width) => .ok (.complete value stack, width)

/-- The name of a field. -/
def Progress.field (stack : List Open) (position : Nat) (cs : List Char) :
    Except Fault (Progress × Nat) :=
  match cs, stack with
  | '"' :: rest, .object fields _ :: stack =>
    match textFrom position (position + 1) [] rest with
    | .error fault => .error fault
    | .ok (name, stop) =>
      .ok (.inside (.object fields (String.ofList name) :: stack) .colon, stop - position)
  | _, _ => .error (.located .name position)

/-- What the text that begins with a character other than white space does next, and how many
characters that takes. -/
def Progress.step (position : Nat) (cs : List Char) : Progress → Except Fault (Progress × Nat)
  | .done _ => .error (.located .extra position)
  | .inside stack next =>
    match next, cs.head? with
    | .firstItem, some ']' => .ok (.close stack, 1)
    | .afterItem, some ']' => .ok (.close stack, 1)
    | .afterItem, some ',' => .ok (.inside stack .value, 1)
    | .afterItem, _ => .error (.located .comma position)
    | .firstName, some '}' => .ok (.close stack, 1)
    | .firstName, _ => Progress.field stack position cs
    | .name, _ => Progress.field stack position cs
    | .colon, some ':' => .ok (.inside stack .value, 1)
    | .colon, _ => .error (.located .colon position)
    | .afterField, some '}' => .ok (.close stack, 1)
    | .afterField, some ',' => .ok (.inside stack .name, 1)
    | .afterField, _ => .error (.located .comma position)
    | _, _ => Progress.begin stack position cs

/-- The text is at its end. -/
def Progress.finish (position : Nat) : Progress → Except Fault Datum
  | .done value => .ok value
  | .inside _ next =>
    match next with
    | .value | .firstItem => .error (.located .value position)
    | .firstName | .name => .error (.located .name position)
    | .colon => .error (.located .colon position)
    | .afterItem | .afterField => .error (.located .comma position)

/-- Reads on from a position. -/
def readFrom (position : Nat) (progress : Progress) : List Char → Except Fault Datum
  | [] => progress.finish position
  | c :: cs =>
    if isSpace c then readFrom (position + 1) progress cs
    else
      match progress.step position (c :: cs) with
      | .error fault => .error fault
      | .ok (progress, width) =>
        readFrom (position + 1 + (width - 1)) progress (cs.drop (width - 1))
  termination_by cs => cs.length
  decreasing_by all_goals simp only [List.length_drop, List.length_cons]; omega

/-- Reads a text that holds one value. -/
def read (cs : List Char) : Except Fault Datum :=
  if cs.head? = some '\ufeff' then .error (.located .byteOrderMark 0)
  else readFrom 0 (.inside [] .value) cs

/-- What a fault in a text looks like to its reader. -/
def Fault.message (cs : List Char) : Fault → String
  | .located complaint position =>
    complaint.describe ++ ": line " ++ toString (Text.lineAt cs position) ++ " column " ++
      toString (Text.columnAt cs position) ++ " (char " ++ toString position ++ ")"
  | .tooManyDigits count =>
    "Exceeds the limit (" ++ toString Text.digitLimit ++
      " digits) for integer string conversion: value has " ++ toString count ++
      " digits; use sys.set_int_max_str_digits() to increase the limit"
  | .tooDeep enclosure =>
    "maximum recursion depth exceeded while decoding a JSON " ++
      (match enclosure with | .array => "array" | .object => "object") ++ " from a unicode string"

end Vouch.Json
