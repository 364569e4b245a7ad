import Vouch.Graph.Basic
import Vouch.Text.Quoted

namespace Vouch

/-- Edges grouped by one of their ends. The groups come in the order of their first edges, and
inside of a group nothing changes places. -/
def groupEdges (endpoint : Edge → String) (edges : List Edge) : List Edge :=
  (edges.map endpoint).eraseDups.flatMap fun id => edges.filter (endpoint · = id)

/-- The identities at the other end of an edge, seen from any of the given ones. -/
def Edge.across (e : Edge) (origins : List String) : List String :=
  (if e.source ∈ origins then [e.target] else []) ++ (if e.target ∈ origins then [e.source] else [])

namespace Graph

/-- The edges that end at an identity, grouped by their sources. -/
def incoming (g : Graph) (id : String) : List Edge :=
  groupEdges Edge.source (g.edges.filter (·.target = id))

/-- The edges that start at an identity, grouped by their targets. -/
def outgoing (g : Graph) (id : String) : List Edge :=
  groupEdges Edge.target (g.edges.filter (·.source = id))

/-- Whether an edge of any kind runs from one identity to another. -/
def links (g : Graph) (a b : String) : Bool :=
  g.edges.any fun e => e.source = a && e.target = b

/-- Two identities vouch for each other if edges run both ways. Nobody does so alone. -/
def isReciprocal (g : Graph) (a b : String) : Bool :=
  a ≠ b && g.links a b && g.links b a

/-- Settles for every edge anew whether it is reciprocal. -/
def mark (g : Graph) : Graph :=
  { g with edges := g.edges.map fun e => { e with reciprocal := g.isReciprocal e.source e.target } }

/-- How many edges are marked as reciprocal. -/
def reciprocalCount (g : Graph) : Nat := g.edges.countP Edge.reciprocal

/-- The identities that share an edge with one of the given ones, whichever way it runs. -/
def beside (g : Graph) (ids : List String) : List String :=
  g.edges.flatMap (·.across ids)

/-- The identities that share an edge with an identity, each once, in order. -/
def neighbors (g : Graph) (id : String) : List String :=
  (g.beside [id]).eraseDups.mergeSort fun a b => a ≤ b

/-- The graph on those of its nodes that are given, with all edges between them, or with none. What
is reciprocal is settled anew. -/
def restrict (g : Graph) (ids : List String) (withEdges : Bool) : Graph :=
  let kept : Graph := {
    root := g.root
    builtAt := g.builtAt
    defaultRole := g.defaultRole
    nodes := g.nodes.filter (·.id ∈ ids)
    edges := if withEdges then g.edges.filter fun e => e.source ∈ ids && e.target ∈ ids else []
    skipped := g.skipped }
  kept.mark

/-- A graph in one line. -/
def describe (g : Graph) : String :=
  "TrustGraph(root=" ++ Text.quoted g.root ++ ", nodes=" ++ toString g.nodes.length ++
    ", edges=" ++ toString g.edges.length ++ ")"

end Graph

end Vouch
