import Vouch.Graph.Build
import Vouch.Graph.Multigraph

namespace Vouch

/-- A graph as it is kept in two views: nodes by their identifiers and edges in order, and besides a
multigraph in which each edge stands by its place in that order. -/
structure Ledger (M : Type) where
  root : String
  builtAt : Option Timestamp := none
  defaultRole : String := "member"
  nodes : List (String × Node) := []
  edges : List Edge := []
  skipped : List String := []
  scope : Scope := .full
  topology : M

namespace Ledger

variable {M : Type} (net : Multigraph M)

/-- A ledger with nothing in it. -/
def blank (root : String) (builtAt : Option Timestamp) (defaultRole : String) : Ledger M :=
  { root, builtAt, defaultRole, topology := net.empty }

/-- What a ledger shows once the multigraph is left out. -/
def view (l : Ledger M) : Graph where
  root := l.root
  builtAt := l.builtAt
  defaultRole := l.defaultRole
  nodes := l.nodes.map Prod.snd
  edges := l.edges
  skipped := l.skipped
  scope := l.scope

def node? (l : Ledger M) (id : String) : Option Node := l.nodes.lookup id

def holds (l : Ledger M) (id : String) : Bool := (l.node? id).isSome

/-- Mentions an identity. A new one is entered into both views, and one that is there is changed in
its place. -/
def addNode (l : Ledger M) (id : String) (m : Mention) : Ledger M × Except GraphFault Node :=
  match l.node? id with
  | none =>
    let n := Node.ofMention id l.defaultRole m
    ({ l with nodes := l.nodes ++ [(id, n)], topology := net.addNode l.topology id }, .ok n)
  | some n =>
    let (n, result) := n.absorb m
    ({ l with nodes := l.nodes.map fun entry => if entry.1 = id then (id, n) else entry },
      result.map fun _ => n)

def hasEdge (l : Ledger M) (key : String × String × String) : Bool := net.hasEdge l.topology key

/-- Enters an edge into both views, unless the multigraph has one with the same key. -/
def addEdge (l : Ledger M) (e : Edge) : Except GraphFault (Ledger M × Bool) :=
  if !l.holds e.source then .error (.unknownEndpoint e.key e.source)
  else if !l.holds e.target then .error (.unknownEndpoint e.key e.target)
  else if l.hasEdge net e.key then .ok (l, false)
  else
    .ok ({ l with
      edges := l.edges ++ [e]
      topology := net.addEdge l.topology e.key l.edges.length }, true)

/-- The edges at given places. -/
def edgesAt (l : Ledger M) (places : List Nat) : List Edge := places.filterMap (l.edges[·]?)

def outgoing (l : Ledger M) (id : String) : List Edge :=
  if net.hasNode l.topology id then l.edgesAt (net.outgoing l.topology id) else []

def incoming (l : Ledger M) (id : String) : List Edge :=
  if net.hasNode l.topology id then l.edgesAt (net.incoming l.topology id) else []

def isReciprocal (l : Ledger M) (a b : String) : Bool :=
  a ≠ b && net.links l.topology a b && net.links l.topology b a

/-- Settles by the multigraph for every edge anew whether it is reciprocal. -/
def mark (l : Ledger M) : Ledger M :=
  { l with edges := l.edges.map fun e =>
      { e with reciprocal := l.isReciprocal net e.source e.target } }

/-- Enters edges one after the other. -/
def addEdges (l : Ledger M) (edges : List Edge) : Except GraphFault (Ledger M) :=
  edges.foldlM (fun l e => (l.addEdge net e).map Prod.fst) l

/-- The given ones of the nodes without any edges, written into both views. -/
def pick (l : Ledger M) (kept : List String) : Ledger M :=
  let nodes := l.nodes.filter (·.1 ∈ kept)
  { root := l.root
    builtAt := l.builtAt
    defaultRole := l.defaultRole
    nodes
    topology := (nodes.map Prod.fst).foldl net.addNode net.empty }

/-- A ledger on those of the nodes that are given. The edges are added once the nodes are there. -/
def restrict (l : Ledger M) (ids : List String) (withEdges : Bool) :
    Except GraphFault (Ledger M) := do
  let kept := ids.filter l.holds
  let edges := if withEdges then l.edges.filter fun e => e.source ∈ kept && e.target ∈ kept else []
  let part ← (l.pick net kept).addEdges net edges
  return { part.mark net with skipped := l.skipped }

/-- What lies around an identity, found by a search in the multigraph. -/
def neighborhood (l : Ledger M) (naming : Naming) (id : String) (depth : Int) :
    Except BuildFault (Ledger M) :=
  let part :=
    if depth < 0 then .error (.negativeDepth ⟨depth⟩)
    else if !l.holds id then
      let bare := blank net l.root l.builtAt naming.defaultRole
      let named := (bare.addNode net id { label := some (shortLabel naming.labelLength id) }).1
      .ok { named with skipped := l.skipped }
    else
      let part :=
        if depth = 0 then l.restrict net [id] false
        else l.restrict net (net.within l.topology id depth.toNat) true
      part.mapError .graph
  part.map fun part => { part with scope := .neighborhood }

end Ledger

/-- What can be asked of a graph: a mention, an edge, fresh marks, a part of it, and the last strokes
of a build. -/
inductive Call where
  | addNode (id : String) (m : Mention)
  | addEdge (e : Edge)
  | mark
  | restrict (ids : List String) (withEdges : Bool)
  | neighborhood (naming : Naming) (id : String) (depth : Int)
  | fillLabels (naming : Naming)
  | stamp (builtAt : Option Timestamp) (skipped : List String)

/-- The graph after a call. What fails leaves it as it was, but for the texts of a mention whose
time cannot be compared. -/
def Graph.call (g : Graph) : Call → Graph
  | .addNode id m => (g.addNode id m).1
  | .addEdge e =>
    match g.addEdge e with
    | .ok (g, _) => g
    | .error _ => g
  | .mark => g.mark
  | .restrict ids withEdges => g.restrict ids withEdges
  | .neighborhood naming id depth =>
    match g.neighborhood naming id depth with
    | .ok part => part
    | .error _ => g
  | .fillLabels naming => g.fillLabels naming
  | .stamp builtAt skipped => { g with builtAt, skipped }

/-- The ledger after a call. -/
def Ledger.call {M : Type} (net : Multigraph M) (l : Ledger M) : Call → Ledger M
  | .addNode id m => (l.addNode net id m).1
  | .addEdge e =>
    match l.addEdge net e with
    | .ok (l, _) => l
    | .error _ => l
  | .mark => l.mark net
  | .restrict ids withEdges =>
    match l.restrict net ids withEdges with
    | .ok part => part
    | .error _ => l
  | .neighborhood naming id depth =>
    match l.neighborhood net naming id depth with
    | .ok part => part
    | .error _ => l
  | .fillLabels naming =>
    { l with nodes := l.nodes.map fun (id, n) =>
        (id, { n with label := (filled n.label).or (some (shortLabel naming.labelLength n.id)) }) }
  | .stamp builtAt skipped => { l with builtAt, skipped }

/-- What a series of calls makes of an empty ledger. -/
def Ledger.run {M : Type} (net : Multigraph M) (root : String) (builtAt : Option Timestamp)
    (defaultRole : String) (calls : List Call) : Ledger M :=
  calls.foldl (Ledger.call net) (Ledger.blank net root builtAt defaultRole)

end Vouch
