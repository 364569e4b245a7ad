import Vouch.Calendar.Timestamp
import Vouch.Text.Digit

namespace Vouch.Iso

open Text

/-- A number of exactly so many ASCII digits, and what follows it. -/
def number? : Nat → List Char → Option (Nat × List Char)
  | 0, cs => some (0, cs)
  | _ + 1, [] => none
  | width + 1, c :: cs => do
    let digit ← asciiDigit? c
    let (rest, cs) ← number? width cs
    some (digit * Nat.pow 10 width + rest, cs)

/-- How many characters the date takes. Ten with hyphens, eight without, and between seven and ten
for a date by weeks, which may leave out the day. -/
def dateWidth? (cs : List Char) : Option Nat :=
  if cs.length = 7 then some 7
  else if cs[4]? = some '-' then
    if cs[5]? = some 'W' then
      if cs[8]? = some '-' then
        if cs.length = 9 then none
        else if (cs[10]?.any Char.isDigit) then some 8
        else some 10
      else some 8
    else some 10
  else if cs[4]? = some 'W' then
    let stop := 7 + ((cs.drop 7).takeWhile Char.isDigit).length
    if stop < 9 then some stop else if stop % 2 = 0 then some 7 else some 8
  else some 8

/-- Takes the hyphen between two parts of a date, if the date is written with hyphens. -/
def hyphen? (hyphens : Bool) (cs : List Char) : Option (List Char) :=
  if hyphens then (if cs.head? = some '-' then some cs.tail else none) else some cs

/-- The number of the day in a date of so many characters. -/
def day? (width : Nat) (cs : List Char) : Option Nat := do
  let (year, rest) ← number? 4 cs
  let hyphens := rest.head? = some '-'
  let rest ← hyphen? hyphens rest
  if rest.head? = some 'W' then
    let (week, rest) ← number? 2 rest.tail
    if cs.length - rest.length < width then
      let rest ← hyphen? hyphens rest
      let (day, _) ← number? 1 rest
      Date.ofWeek? year week day
    else Date.ofWeek? year week 1
  else
    let (month, rest) ← number? 2 rest
    let rest ← hyphen? hyphens rest
    let (day, _) ← number? 2 rest
    let date : Date := ⟨year, month, day⟩
    if date.Valid then some date.number else none

/-- Whether a text goes on. It ends at the null character. -/
def goesOn : List Char → Bool
  | [] => false
  | c :: _ => c ≠ '\x00'

/-- Hours, minutes, seconds and microseconds as they stand in a text, and whether the text goes on
after them. -/
structure Fields where
  parts : List Nat
  micro : Nat
  more : Bool

namespace Fields

def hour (f : Fields) : Nat := f.parts.getD 0 0

def minute (f : Fields) : Nat := f.parts.getD 1 0

def second (f : Fields) : Nat := f.parts.getD 2 0

def seconds (f : Fields) : Nat := f.hour * 3600 + f.minute * 60 + f.second

end Fields

/-- A fraction of a second. Six digits count, further ones are passed over. -/
def fraction? (parts : List Nat) (cs : List Char) : Option Fields := do
  let (value, _) ← number? (min 6 cs.length) cs
  let more := goesOn ((cs.drop 6).dropWhile Char.isDigit)
  some ⟨parts, value * Nat.pow 10 (6 - min 6 cs.length), more⟩

/-- Up to three numbers of two digits and a fraction. What follows the first number settles whether
colons stand between the numbers. After a point or a comma, and after the third number, the
fraction follows. -/
def fields? : Nat → Option Bool → List Nat → List Char → Option Fields
  | left, colons, parts, cs => do
    let (value, rest) ← number? 2 cs
    let parts := parts ++ [value]
    match rest with
    | [] => some ⟨parts, 0, false⟩
    | c :: after =>
      let colons := colons.getD (c = ':')
      let next := fun cs => match left with
        | 0 => fraction? parts cs
        | left + 1 => fields? left (some colons) parts cs
      if 128 ≤ c.toNat then none
      else if after = [] then some ⟨parts, 0, goesOn rest⟩
      else if colons && c = ':' then next after
      else if c = '.' ∨ c = ',' then fraction? parts after
      else if colons then none
      else next rest

/-- The offset that a zone stands for. Less than a second is none at all. -/
def zone? : List Char → Option Offset
  | 'Z' :: cs => if goesOn cs then none else some .utc
  | sign :: cs => do
    if sign = '+' ∨ sign = '-' then
      let fields ← fields? 2 none [] cs
      let micros : Int := fields.seconds * 1000000 + fields.micro
      if fields.more then none
      else if fields.seconds = 0 then some .utc
      else Offset.ofMicros? (if sign = '-' then -micros else micros)
    else none
  | [] => none

/-- The time of a day, and the zone if there is one. What stands between the time and a zone is
passed over. -/
def time? (cs : List Char) : Option (Fields × Option Offset) := do
  let isZone := fun c => c = '+' ∨ c = '-' ∨ c = 'Z'
  let clock := cs.takeWhile fun c => !isZone c
  let zone := cs.dropWhile fun c => !isZone c
  let fields ← fields? 2 none [] clock
  if zone = [] then
    if fields.more then none else some (fields, none)
  else
    let offset ← zone? zone
    some (fields, some offset)

/-- Reads a date, or a date and a time with any one character between them. -/
def read? (cs : List Char) : Option Timestamp := do
  if cs.length < 7 then none
  else
    let width ← dateWidth? cs
    let day ← day? width (cs.take width)
    if cs.length ≤ width then
      let clock ← Reading.ofDay? day 0 0 0 0
      some ⟨clock, none⟩
    else
      let (fields, offset) ← time? (cs.drop (width + 1))
      let clock ← Reading.ofDay? day fields.hour fields.minute fields.second fields.micro
      some ⟨clock, offset⟩

/-- Reads a point in time written in the interchange form, where a final `Z` stands for universal
time. -/
def timestamp? (cs : List Char) : Option Timestamp :=
  if cs.getLast? = some 'Z' ∨ cs.getLast? = some 'z' then
    read? (cs.dropLast ++ "+00:00".toList)
  else read? cs

end Vouch.Iso
