import Vouch.Score.Standing

namespace Vouch

/-- One distance is less than another. What can be reached is nearer than what cannot. -/
def isNearer : Option Nat → Option Nat → Bool
  | some a, some b => a < b
  | some _, none => true
  | none, _ => false

section

variable {α : Type} [LE α] [DecidableLE α]

/-- The order of a ranking: the higher value first, then the nearer to the root, then the lesser
identifier. -/
def Score.outranks (a b : Score α) : Bool :=
  if ¬ a.value ≤ b.value then true
  else if ¬ b.value ≤ a.value then false
  else if isNearer a.standing.depth b.standing.depth then true
  else if isNearer b.standing.depth a.standing.depth then false
  else a.id < b.id

/-- Scores in the order of their ranking. -/
def ranked (scores : List (Score α)) : List (Score α) :=
  scores.mergeSort fun a b => !b.outranks a

/-- The first scores of the ranking, as many as are asked for. -/
def Graph.top [Add α] [Sub α] [Mul α] [NatCast α] (g : Graph) (w : Weights α) (count : Int) :
    List (Score α) :=
  (ranked (g.scores w)).take count.toNat

end

end Vouch
