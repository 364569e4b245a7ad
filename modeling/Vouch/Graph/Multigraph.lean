namespace Vouch

/-- A directed multigraph whose edges go by keys and carry numbers, as a graph makes use of one. `M`
are its states. -/
structure Multigraph (M : Type) where
  empty : M
  addNode : M → String → M
  addEdge : M → String × String × String → Nat → M
  hasNode : M → String → Bool
  hasEdge : M → String × String × String → Bool
  /-- Whether any edge runs from one node to another. -/
  links : M → String → String → Bool
  /-- The numbers on the edges that start at a node. -/
  outgoing : M → String → List Nat
  /-- The numbers on the edges that end at a node. -/
  incoming : M → String → List Nat
  /-- The nodes next to a node, whichever way the edges between them run. -/
  neighbors : M → String → List String
  /-- The nodes within some number of steps from a node to its neighbors. -/
  within : M → String → Nat → List String

/-- A walk of so many steps, each to one that is near. -/
inductive Walk (near : String → List String) : Nat → String → String → Prop
  | here (a : String) : Walk near 0 a a
  | step {a b c : String} {n : Nat} : Walk near n a b → c ∈ near b → Walk near (n + 1) a c

/-- What a graph counts on in a multigraph. A new edge brings its ends along and changes nothing
about the others. -/
structure Multigraph.Lawful {M : Type} (net : Multigraph M) : Prop where
  hasNode_empty : ∀ id, net.hasNode net.empty id = false
  hasNode_addNode : ∀ m a id, net.hasNode (net.addNode m a) id = (id = a || net.hasNode m id)
  hasNode_addEdge : ∀ m key n id, net.hasNode (net.addEdge m key n) id =
    (id = key.1 || id = key.2.1 || net.hasNode m id)
  hasEdge_empty : ∀ key, net.hasEdge net.empty key = false
  hasEdge_addNode : ∀ m a key, net.hasEdge (net.addNode m a) key = net.hasEdge m key
  hasEdge_addEdge : ∀ m key n other, net.hasEdge (net.addEdge m key n) other =
    (other = key || net.hasEdge m other)
  links_iff : ∀ m a b, net.links m a b = true ↔ ∃ label, net.hasEdge m (a, b, label) = true
  outgoing_empty : ∀ id, net.outgoing net.empty id = []
  outgoing_addNode : ∀ m a id, net.outgoing (net.addNode m a) id = net.outgoing m id
  outgoing_addEdge : ∀ m key n id, net.hasEdge m key = false →
    (net.outgoing (net.addEdge m key n) id).Perm
      (if key.1 = id then n :: net.outgoing m id else net.outgoing m id)
  incoming_empty : ∀ id, net.incoming net.empty id = []
  incoming_addNode : ∀ m a id, net.incoming (net.addNode m a) id = net.incoming m id
  incoming_addEdge : ∀ m key n id, net.hasEdge m key = false →
    (net.incoming (net.addEdge m key n) id).Perm
      (if key.2.1 = id then n :: net.incoming m id else net.incoming m id)
  mem_neighbors_iff : ∀ m a b, b ∈ net.neighbors m a ↔
    net.links m a b = true ∨ net.links m b a = true
  mem_within_iff : ∀ m a n b, net.hasNode m a = true →
    (b ∈ net.within m a n ↔ ∃ k ≤ n, Walk (net.neighbors m) k a b)

/-- A multigraph as the plain lists of its nodes and of its edges, in the order in which they
came. -/
structure Strands where
  ids : List String := []
  edges : List ((String × String × String) × Nat) := []
  deriving DecidableEq

namespace Strands

def addNode (m : Strands) (id : String) : Strands :=
  if id ∈ m.ids then m else { m with ids := m.ids ++ [id] }

/-- Adds an edge along with its ends. One with the same key stays in its place and gets the new
number. -/
def addEdge (m : Strands) (key : String × String × String) (n : Nat) : Strands :=
  let m := (m.addNode key.1).addNode key.2.1
  if m.edges.any (·.1 = key) then
    { m with edges := m.edges.map fun e => if e.1 = key then (key, n) else e }
  else { m with edges := m.edges ++ [(key, n)] }

def links (m : Strands) (a b : String) : Bool := m.edges.any fun e => e.1.1 = a && e.1.2.1 = b

/-- The numbers on edges, grouped by one end of these. The groups come in the order of their first
edges. -/
def numbers (endpoint : String × String × String → String)
    (edges : List ((String × String × String) × Nat)) : List Nat :=
  ((edges.map fun e => endpoint e.1).eraseDups.flatMap fun id =>
    edges.filter fun e => endpoint e.1 = id).map Prod.snd

def neighbors (m : Strands) (id : String) : List String :=
  (m.edges.flatMap fun e =>
    (if e.1.1 = id then [e.1.2.1] else []) ++ if e.1.2.1 = id then [e.1.1] else []).eraseDups

def within (m : Strands) (id : String) : Nat → List String
  | 0 => [id]
  | n + 1 =>
    let before := within m id n
    (before ++ before.flatMap m.neighbors).eraseDups

def multigraph : Multigraph Strands where
  empty := {}
  addNode := addNode
  addEdge := addEdge
  hasNode m id := m.ids.contains id
  hasEdge m key := m.edges.any (·.1 = key)
  links := links
  outgoing m id := numbers (·.2.1) (m.edges.filter (·.1.1 = id))
  incoming m id := numbers (·.1) (m.edges.filter (·.1.2.1 = id))
  neighbors := neighbors
  within := within

end Strands

end Vouch
