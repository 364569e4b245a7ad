import Vouch.Graph.Distance
import Vouch.Settings

namespace Vouch

/-- Whole numbers among the doubles, rounded where they are too long. -/
instance natCastFloat : NatCast Float := ⟨Float.ofNat⟩

/-- What the graph says about an identity: the credentials it received and gave, the identities it
received them from, how many of them are returned, its distance from the root, and whether the root
gave it one. -/
structure Standing where
  incoming : Nat
  outgoing : Nat
  issuers : Nat
  reciprocal : Nat
  depth : Option Nat
  rootIssued : Bool
  deriving DecidableEq

/-- The standing of an identity that takes no part. -/
def Standing.absent : Standing := ⟨0, 0, 0, 0, none, false⟩

/-- Reads the standing of an identity at a distance off the graph. The root is at no distance from
itself. -/
def Graph.standing (g : Graph) (id : String) (depth : Option Nat) : Standing :=
  let received := g.incoming id
  { incoming := received.length
    outgoing := (g.outgoing id).length
    issuers := (received.map Edge.source).eraseDups.length
    reciprocal := received.countP Edge.reciprocal
    depth := if id = g.root then some 0 else depth
    rootIssued := received.any (·.source = g.root) }

/-- The value of a standing, added up from left to right. What cannot be reached from the root pays
for no hops. -/
def Weights.value {α : Type} [Add α] [Sub α] [Mul α] [NatCast α] (w : Weights α) (s : Standing) :
    α :=
  let credit :=
    (s.incoming : α) * w.incoming + (s.issuers : α) * w.issuer + (s.reciprocal : α) * w.reciprocal
  let placed :=
    match s.depth with
    | none => credit
    | some depth => credit - (depth : α) * w.hop
  if s.rootIssued then placed + w.rootIssued else placed

/-- An identity, its standing, and the value of that. -/
structure Score (α : Type) where
  id : String
  label : Option String
  role : String
  standing : Standing
  value : α
  deriving DecidableEq

section

variable {α : Type} [Add α] [Sub α] [Mul α] [NatCast α]

/-- The score of a node with a standing. -/
def Node.score (n : Node) (w : Weights α) (s : Standing) : Score α where
  id := n.id
  label := n.label
  role := n.role
  standing := s
  value := w.value s

namespace Graph

/-- The score of one identity. To take no part is no fault and has the value zero. -/
def score (g : Graph) (w : Weights α) (id : String) : Score α :=
  match g.node? id with
  | none => ⟨id, none, "", .absent, ((0 : Nat) : α)⟩
  | some n => n.score w (g.standing id (g.depthOf id))

/-- The scores of all nodes, in their order, from one search for the distances. -/
def scores (g : Graph) (w : Weights α) : List (Score α) :=
  let levels := g.rootLevels
  g.nodes.map fun n => n.score w (g.standing n.id (levelOf levels n.id))

end Graph

end

end Vouch
