import Vouch.Datum
import Vouch.Text.Digit

namespace Vouch.Json

/-- What is wrong at a place of a text. -/
inductive Complaint where
  | value
  | name
  | colon
  | comma
  | extra
  | unterminated
  | control
  | escape
  | codeUnit
  | byteOrderMark
  deriving DecidableEq

def Complaint.describe : Complaint → String
  | .value => "Expecting value"
  | .name => "Expecting property name enclosed in double quotes"
  | .colon => "Expecting ':' delimiter"
  | .comma => "Expecting ',' delimiter"
  | .extra => "Extra data"
  | .unterminated => "Unterminated string starting at"
  | .control => "Invalid control character at"
  | .escape => "Invalid \\escape"
  | .codeUnit => "Invalid \\uXXXX escape"
  | .byteOrderMark => "Unexpected UTF-8 BOM (decode using utf-8-sig)"

/-- The two ways to enclose values. -/
inductive Enclosure where
  | array
  | object
  deriving DecidableEq

/-- Why a text cannot be read: something is wrong at a position, a number is too long, or values
are enclosed too deeply. -/
inductive Fault where
  | located (complaint : Complaint) (position : Nat)
  | tooManyDigits (count : Nat)
  | tooDeep (enclosure : Enclosure)
  deriving DecidableEq

def isSpace (c : Char) : Bool :=
  c = ' ' || c = '\t' || c = '\n' || c = '\r'

/-- The number that four hexadecimal digits make. -/
def codeUnit? : List Char → Option Nat
  | [a, b, c, d] => do
    let a ← Text.hexDigit? a
    let b ← Text.hexDigit? b
    let c ← Text.hexDigit? c
    let d ← Text.hexDigit? d
    some (((a * 16 + b) * 16 + c) * 16 + d)
  | _ => none

/-- The character that a letter stands for after a backslash. -/
def escaped? : Char → Option Char
  | '"' => some '"'
  | '\\' => some '\\'
  | '/' => some '/'
  | 'b' => some '\x08'
  | 'f' => some '\x0c'
  | 'n' => some '\n'
  | 'r' => some '\r'
  | 't' => some '\t'
  | _ => none

/-- A code unit that belongs to no pair stands for no character; the replacement character takes its
place. So texts that differ in such units alone are not told apart. -/
def charOfUnit (unit : Nat) : Char :=
  if 0xd800 ≤ unit ∧ unit < 0xe000 then '\ufffd' else Char.ofNat unit

/-- The character that a numeric escape stands for, and how many characters it takes after the `u`,
whose position is given. Two escapes that form a pair stand for one character. An escape is not
looked at unless something follows it. -/
def numericEscape (position : Nat) (cs : List Char) : Except Fault (Char × Nat) :=
  match if 4 < cs.length then codeUnit? (cs.take 4) else none with
  | none => .error (.located .codeUnit position)
  | some high =>
    let rest := cs.drop 4
    if 0xd800 ≤ high ∧ high < 0xdc00 ∧ 6 < rest.length ∧ rest.take 2 = ['\\', 'u'] then
      match codeUnit? ((rest.drop 2).take 4) with
      | none => .error (.located .codeUnit (position + 6))
      | some low =>
        if 0xdc00 ≤ low ∧ low < 0xe000 then
          .ok (Char.ofNat (0x10000 + (high - 0xd800) * 0x400 + (low - 0xdc00)), 10)
        else .ok (charOfUnit high, 4)
    else .ok (charOfUnit high, 4)

/-- The characters of a text up to its closing quote, and how many places it takes from the given
position on. The opening quote stands at `start`. -/
def textFrom (start position : Nat) (before : List Char) :
    List Char → Except Fault (List Char × Nat)
  | [] => .error (.located .unterminated start)
  | '"' :: _ => .ok (before.reverse, position + 1)
  | '\\' :: [] => .error (.located .unterminated start)
  | '\\' :: 'u' :: cs =>
    match numericEscape (position + 1) cs with
    | .error fault => .error fault
    | .ok (c, width) => textFrom start (position + 2 + width) (c :: before) (cs.drop width)
  | '\\' :: letter :: cs =>
    match escaped? letter with
    | none => .error (.located .escape position)
    | some c => textFrom start (position + 2) (c :: before) cs
  | c :: cs =>
    if c.toNat < 0x20 then .error (.located .control position)
    else textFrom start (position + 1) (c :: before) cs
  termination_by cs => cs.length
  decreasing_by all_goals simp only [List.length_drop, List.length_cons]; omega

/-- The natural number that decimal digits make. -/
def natOfDigits (digits : List Char) : Nat :=
  digits.foldl (fun n c => n * 10 + (c.toNat - 48)) 0

/-- The double nearest to `digits * 10 ^ scale`. Numbers far beyond its range on either side are
settled by the place of their leading digit. -/
def doubleOf (negative : Bool) (digits : List Char) (scale : Int) : Float :=
  let digits := digits.dropWhile (· = '0')
  let lead : Int := digits.length + scale
  let size :=
    if digits = [] ∨ lead < -400 then 0.0
    else if 400 < lead then 1.0 / 0.0
    else OfScientific.ofScientific (natOfDigits digits) (decide (scale < 0)) scale.natAbs
  if negative then -size else size

/-- The digits after a point, if the point is followed by one. -/
def fractionDigits : List Char → List Char
  | '.' :: cs => cs.takeWhile Char.isDigit
  | _ => []

/-- The exponent after a mantissa, and how many characters it takes. It counts only if it has
digits. -/
def exponentPart : List Char → Option (Int × Nat)
  | c :: cs =>
    if c = 'e' ∨ c = 'E' then
      let signed := cs.head? = some '-' ∨ cs.head? = some '+'
      let digits := (if signed then cs.tail else cs).takeWhile Char.isDigit
      let size : Int := natOfDigits digits
      if digits = [] then none
      else some (if cs.head? = some '-' then -size else size,
        1 + (if signed then 1 else 0) + digits.length)
    else none
  | [] => none

/-- A number at the beginning of a text, and how many characters it takes. -/
def number? (cs : List Char) : Except Fault (Option (Datum × Nat)) :=
  let negative := cs.head? = some '-'
  let rest := if negative then cs.tail else cs
  let digits :=
    if rest.head? = some '0' then ['0'] else rest.takeWhile Char.isDigit
  if digits = [] then .ok none
  else
    let rest := rest.drop digits.length
    let fraction := fractionDigits rest
    let pointed := if fraction = [] then 0 else fraction.length + 1
    let width := (if negative then 1 else 0) + digits.length + pointed
    match exponentPart (rest.drop pointed) with
    | some (exponent, length) =>
      let value := doubleOf negative (digits ++ fraction) (exponent - fraction.length)
      .ok (some (.float value, width + length))
    | none =>
      if fraction ≠ [] then
        .ok (some (.float (doubleOf negative (digits ++ fraction) (-fraction.length)), width))
      else if Text.digitLimit < digits.length then .error (.tooManyDigits digits.length)
      else
        let size : Int := natOfDigits digits
        .ok (some (.int (if negative then -size else size), width))

/-- The words that are values. -/
def words : List (String × Datum) :=
  [("null", .null), ("true", .bool true), ("false", .bool false), ("NaN", .float (0.0 / 0.0)),
    ("Infinity", .float (1.0 / 0.0)), ("-Infinity", .float (-1.0 / 0.0))]

/-- The word at the beginning of a text, if one stands there. -/
def word? (cs : List Char) : Option (Datum × Nat) :=
  (words.find? fun w => w.1.toList.isPrefixOf cs).map fun w => (w.2, w.1.length)

/-- A text, a word or a number at a position, and how many characters it takes. -/
def lexeme (position : Nat) (cs : List Char) : Except Fault (Datum × Nat) :=
  match cs with
  | '"' :: rest =>
    match textFrom position (position + 1) [] rest with
    | .error fault => .error fault
    | .ok (text, stop) => .ok (.text (String.ofList text), stop - position)
  | _ =>
    match word? cs with
    | some found => .ok found
    | none =>
      match number? cs with
      | .error fault => .error fault
      | .ok (some found) => .ok found
      | .ok none => .error (.located .value position)

end Vouch.Json
