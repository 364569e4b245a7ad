import Vouch.Text.Digit

namespace Vouch.Internet

/-- A number up to 255 in decimal, without zeros in front. -/
def isOctet (text : String) : Bool :=
  let cs := text.toList
  cs ≠ [] && cs.all Char.isDigit && cs.length ≤ 3 && (cs = ['0'] || cs.head? ≠ some '0') &&
    (cs.foldl (fun n c => n * 10 + (c.toNat - 48)) 0) ≤ 255

/-- Four numbers with points between them. -/
def isVersion4 (text : String) : Bool :=
  let parts := text.splitOn "."
  parts.length = 4 && parts.all isOctet

/-- Up to four hexadecimal digits. -/
def isGroup (text : String) : Bool :=
  text ≠ "" && text.length ≤ 4 && text.toList.all fun c => (Text.hexDigit? c).isSome

/-- Groups on one side of a gap. The gap may be at the very end. -/
def isSide (parts : List String) : Bool := parts = [""] || parts.all isGroup

def sideLength (parts : List String) : Nat := if parts = [""] then 0 else parts.length

/-- Eight groups, or fewer with one gap among them. -/
def areGroups (parts : List String) : Bool :=
  match parts.tail.dropLast.count "" with
  | 0 => parts.length = 8 && parts.all isGroup
  | 1 =>
    let gap := 1 + parts.tail.dropLast.idxOf ""
    let before := parts.take gap
    let after := parts.drop (gap + 1)
    isSide before && isSide after && sideLength before + sideLength after ≤ 7
  | _ => false

/-- Groups with colons between them. Four numbers with points may stand for the last two groups. -/
def isGrouped (text : String) : Bool :=
  let parts := text.splitOn ":"
  let last := parts.getLast?.getD ""
  if parts.length < 3 then false
  else if '.' ∈ last.toList then isVersion4 last && areGroups (parts.dropLast ++ ["0", "0"])
  else areGroups parts

/-- Groups, and a zone after a percent sign if that is needed. -/
def isVersion6 (text : String) : Bool :=
  match text.splitOn "%" with
  | [groups] => isGrouped groups
  | [groups, zone] => zone ≠ "" && isGrouped groups
  | _ => false

/-- A version in hexadecimal digits, a point, and something after it. -/
def isFutureHost (cs : List Char) : Bool :=
  let version := cs.takeWhile fun c => (Text.hexDigit? c).isSome
  version ≠ [] && (cs.drop version.length).head? = some '.' && version.length + 1 < cs.length

end Vouch.Internet
