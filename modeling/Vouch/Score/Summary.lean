import Vouch.Score.Standing

namespace Vouch

section

variable {α : Type} [Add α] [NatCast α]

/-- Adds from left to right. -/
def sumInOrder : List α → α
  | [] => ((0 : Nat) : α)
  | x :: xs => xs.foldl (· + ·) x

/-- Adds blocks of eight to eight running sums, joins the sums in pairs, and adds what is left
over. -/
def sumByEights (sums xs : List α) : α :=
  if xs.length < 8 then
    match sums with
    | [a, b, c, d, e, f, g, h] => sumInOrder ((((a + b) + (c + d)) + ((e + f) + (g + h))) :: xs)
    | _ => sumInOrder (sums ++ xs)
  else sumByEights (List.zipWith (· + ·) sums (xs.take 8)) (xs.drop 8)
  termination_by xs.length
  decreasing_by simp only [List.length_drop]; omega

/-- Adds in pairs, so that errors of rounding stay small: long lists are cut in two at a multiple of
eight, and short ones are added in order. -/
def sumInPairs (xs : List α) : α :=
  if xs.length < 8 then sumInOrder xs
  else if _ : xs.length ≤ 128 then sumByEights (xs.take 8) (xs.drop 8)
  else
    let half := xs.length / 2 - xs.length / 2 % 8
    sumInPairs (xs.take half) + sumInPairs (xs.drop half)
  termination_by xs.length
  decreasing_by
    · simp only [List.length_take]; omega
    · simp only [List.length_drop]; omega

/-- The mean. Its sum starts from zero, which takes the sign from zeros that have one. -/
def mean [Div α] (xs : List α) : α := (((0 : Nat) : α) + sumInPairs xs) / (xs.length : α)

/-- The greatest of some numbers. What is not a number outdoes all others. -/
def greatest [LE α] [DecidableLE α] : List α → α
  | [] => ((0 : Nat) : α)
  | x :: xs => xs.foldl (fun best y => if y ≤ best ∨ ¬ best ≤ best then best else y) x

/-- The least of some numbers. What is not a number outdoes all others. -/
def least [LE α] [DecidableLE α] : List α → α
  | [] => ((0 : Nat) : α)
  | x :: xs => xs.foldl (fun best y => if best ≤ y ∨ ¬ best ≤ best then best else y) x

/-- The middle one of some distances, or the mean of the two in the middle. -/
def median [Div α] (depths : List Nat) : α :=
  let sorted := depths.mergeSort fun a b => a ≤ b
  match sorted[(depths.length - 1) / 2]?, sorted[depths.length / 2]? with
  | some low, some high => ((low + high : Nat) : α) / ((2 : Nat) : α)
  | _, _ => ((0 : Nat) : α)

end

/-- A graph in numbers. The median is taken over what can be reached from the root. -/
structure Summary (α : Type) where
  nodes : Nat
  edges : Nat
  average : α
  highest : α
  lowest : α
  medianDepth : α
  reciprocal : Nat
  deriving DecidableEq

namespace Graph

/-- Whether there is no node besides the root. -/
def isLone (g : Graph) : Bool := g.nodes.all (·.id = g.root)

variable {α : Type} [Add α] [Sub α] [Mul α] [Div α] [NatCast α] [LE α] [DecidableLE α]

/-- Sums a graph up. Where there is nobody besides the root, scores and distances say nothing and
are given as zero. -/
def summary (g : Graph) (w : Weights α) : Summary α :=
  let zero := ((0 : Nat) : α)
  let counted : Summary α := {
    nodes := g.nodes.length
    edges := g.edges.length
    average := zero
    highest := zero
    lowest := zero
    medianDepth := zero
    reciprocal := g.reciprocalCount }
  if g.isLone then counted
  else
    let scores := g.scores w
    let values := scores.map Score.value
    { counted with
      average := mean values
      highest := greatest values
      lowest := least values
      medianDepth := median (scores.filterMap (·.standing.depth)) }

end Graph

end Vouch
