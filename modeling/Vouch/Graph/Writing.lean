import Vouch.Graph.Ledger

namespace Vouch

/-- Writes the node of an identity in its place. -/
def Ledger.put {M : Type} (l : Ledger M) (id : String) (n : Node) : Ledger M :=
  { l with nodes := l.nodes.map fun entry => if entry.1 = id then (id, n) else entry }

/-- Work on a ledger, one write after the other. It may break off, and what was written by then
stays. -/
abbrev Writing (M : Type) := ExceptT GraphFault (StateM (Ledger M))

namespace Writing

variable {M : Type} (net : Multigraph M)

/-- The ledger that work leaves, and what comes of the work. -/
def outcome {α : Type} (work : Writing M α) (l : Ledger M) : Ledger M × Except GraphFault α :=
  (work.run.run l).swap

/-- Writes a node, and hands it on. -/
def put (id : String) (n : Node) : Writing M Node := do
  modify fun l => l.put id n
  return n

/-- Writes a node with a new text, unless there is nothing in the text. -/
def putText (id : String) (n : Node) (text : Option String) (renew : String → Node) :
    Writing M Node :=
  match filled text with
  | none => return n
  | some text => put id (renew text)

/-- Writes the texts of a mention, one by one. -/
def putTexts (id : String) (n : Node) (m : Mention) : Writing M Node := do
  let n ← putText id n m.label fun text => { n with label := some text }
  let n ← putText id n m.role fun text => { n with role := text }
  putText id n m.status fun text => { n with status := some text }

/-- Mentions an identity. Of one that is there the texts are written before the times are
compared. -/
def addNode (id : String) (m : Mention) : Writing M Node := do
  match (← get).node? id with
  | none =>
    let n := Node.ofMention id (← get).defaultRole m
    modify fun l => { l with nodes := l.nodes ++ [(id, n)] }
    modify fun l => { l with topology := net.addNode l.topology id }
    return n
  | some n =>
    let n ← putTexts id n m
    let joinedAt ← MonadExcept.ofExcept (earlier? m.joinedAt n.joinedAt)
    let n ← put id { n with joinedAt }
    put id { n with credentials := n.credentials + m.credentials }

/-- Breaks off unless an end of an edge is there. -/
def require (key : String × String × String) (endpoint : String) : Writing M Unit := do
  unless (← get).holds endpoint do throw (.unknownEndpoint key endpoint)

/-- Enters an edge, first into the one view and then into the other. All that can fail comes before
that. -/
def addEdge (e : Edge) : Writing M Bool := do
  require e.key e.source
  require e.key e.target
  if (← get).hasEdge net e.key then return false
  let place := (← get).edges.length
  modify fun l => { l with edges := l.edges ++ [e] }
  modify fun l => { l with topology := net.addEdge l.topology e.key place }
  return true

/-- Settles by the multigraph whether the edge at a place is reciprocal, and counts it if it is. -/
def markAt (count place : Nat) : StateM (Ledger M) Nat := do
  let l ← get
  match l.edges[place]? with
  | none => return count
  | some e =>
    let reciprocal := l.isReciprocal net e.source e.target
    set { l with edges := l.edges.set place { e with reciprocal } }
    return count + reciprocal.toNat

/-- Goes along the edges, settles for each anew whether it is reciprocal, and counts those that
are. -/
def mark : StateM (Ledger M) Nat := do
  (List.range (← get).edges.length).foldlM (markAt net) 0

end Writing

end Vouch
