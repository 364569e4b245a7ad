import Vouch.Text.Blank
import Vouch.Text.Digit

namespace Vouch.Text

/-- The blanks that may stand around a number: those of ASCII and all others, but not the four
separators. -/
def isNumberBlank (c : Char) : Bool :=
  isBlank c && !(28 ≤ c.toNat && c.toNat ≤ 31)

/-- The digits of a number in any script. Single underscores may stand between two digits. -/
def digits? : List Char → Option (List Nat)
  | [] => none
  | [c] => (digitValue? c).map fun d => [d]
  | c :: '_' :: cs => do
    let d ← digitValue? c
    let ds ← digits? cs
    some (d :: ds)
  | c :: cs => do
    let d ← digitValue? c
    let ds ← digits? cs
    some (d :: ds)

/-- Reads an integer with an optional sign, and blanks around it. -/
def integer? (text : String) : Option Int := do
  let blank := isNumberBlank
  let cs := ((text.toList.dropWhile blank).reverse.dropWhile blank).reverse
  let signed := cs.head? = some '-' ∨ cs.head? = some '+'
  let ds ← digits? (if signed then cs.tail else cs)
  let size : Nat := ds.foldl (fun n d => n * 10 + d) 0
  if digitLimit < ds.length then none
  else some (if cs.head? = some '-' then -(size : Int) else size)

end Vouch.Text
