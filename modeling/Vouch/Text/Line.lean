namespace Vouch.Text

/-- Writes every line end, in whichever of the three usual ways it is written, as a line feed. -/
def unifyLines : List Char → List Char
  | [] => []
  | '\r' :: '\n' :: cs => '\n' :: unifyLines cs
  | '\r' :: cs => '\n' :: unifyLines cs
  | c :: cs => c :: unifyLines cs

/-- The line on which a position lies, the first being line one. -/
def lineAt (cs : List Char) (position : Nat) : Nat :=
  1 + (cs.take position).count '\n'

/-- The column in which a position lies, the first being column one. -/
def columnAt (cs : List Char) (position : Nat) : Nat :=
  1 + ((cs.take position).reverse.takeWhile (· ≠ '\n')).length

end Vouch.Text
