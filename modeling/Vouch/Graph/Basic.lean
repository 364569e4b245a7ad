import Vouch.Calendar.Timestamp
import Vouch.Credential.Kind

namespace Vouch

/-- An identity that takes part. `credentials` counts the credentials that name it. -/
structure Node where
  id : String
  label : Option String
  role : String
  joinedAt : Option Timestamp
  credentials : Int
  status : Option String
  deriving DecidableEq

/-- What is said about an identity at one time. What is left out says nothing. -/
structure Mention where
  label : Option String := none
  role : Option String := none
  joinedAt : Option Timestamp := none
  credentials : Int := 0
  status : Option String := none
  deriving DecidableEq

/-- A relation from an issuer to a subject, stated by one credential. It is reciprocal if some
relation runs the other way. -/
structure Edge where
  source : String
  target : String
  kind : Kind
  credential : String
  issuedAt : Option Timestamp
  reciprocal : Bool
  deriving DecidableEq

/-- What tells edges apart. -/
def Edge.key (e : Edge) : String × String × String := (e.source, e.target, e.credential)

/-- Whether a graph shows a whole organization, or what lies around one identity. -/
inductive Scope where
  | full
  | neighborhood
  deriving DecidableEq

def Scope.name : Scope → String
  | .full => "full"
  | .neighborhood => "neighborhood"

/-- The identities of an organization and their relations, both in the order in which they came,
and one line for each record that was left out. -/
structure Graph where
  root : String
  builtAt : Option Timestamp := none
  defaultRole : String := "member"
  nodes : List Node := []
  edges : List Edge := []
  skipped : List String := []
  scope : Scope := .full
  deriving DecidableEq

/-- Why a graph does not take a node or an edge. -/
inductive GraphFault where
  | unknownEndpoint (edge : String × String × String) (endpoint : String)
  | incomparableTimes
  deriving DecidableEq

def GraphFault.message : GraphFault → String
  | .unknownEndpoint (source, target, credential) endpoint =>
    "edge " ++ source ++ " -> " ++ target ++ " (" ++ credential ++
      ") references unknown node '" ++ endpoint ++ "'"
  | .incomparableTimes => "can't compare offset-naive and offset-aware datetimes"

/-- A text that has something in it. -/
def filled (text : Option String) : Option String := text.filter (· ≠ "")

/-- The earlier of two times, if both are known. The second one stands if they are the same. -/
def earlier? (a b : Option Timestamp) : Except GraphFault (Option Timestamp) :=
  match a, b with
  | none, b => .ok b
  | a, none => .ok a
  | some a, some b =>
    match a.isBefore? b with
    | none => .error .incomparableTimes
    | some before => .ok (some (if before then a else b))

namespace Node

/-- An identity at its first mention. -/
def ofMention (id defaultRole : String) (m : Mention) : Node where
  id := id
  label := m.label
  role := (filled m.role).getD defaultRole
  joinedAt := m.joinedAt
  credentials := m.credentials
  status := m.status

/-- Takes over the texts of a mention that have something in them. -/
def rename (n : Node) (m : Mention) : Node :=
  { n with
    label := (filled m.label).or n.label
    role := (filled m.role).getD n.role
    status := (filled m.status).or n.status }

/-- Takes over a mention. If its time cannot be compared, the texts are taken over and the rest is
not. -/
def absorb (n : Node) (m : Mention) : Node × Except GraphFault Unit :=
  let renamed := n.rename m
  match earlier? m.joinedAt n.joinedAt with
  | .error fault => (renamed, .error fault)
  | .ok joinedAt =>
    ({ renamed with joinedAt, credentials := n.credentials + m.credentials }, .ok ())

end Node

namespace Graph

/-- The identifiers of all nodes. -/
def ids (g : Graph) : List String := g.nodes.map Node.id

def node? (g : Graph) (id : String) : Option Node := g.nodes.find? (·.id = id)

def hasNode (g : Graph) (id : String) : Bool := g.nodes.any (·.id = id)

def hasEdge (g : Graph) (key : String × String × String) : Bool := g.edges.any (·.key = key)

/-- Puts a node in the place of the one with the same identifier. -/
def replaceNode (g : Graph) (n : Node) : Graph :=
  { g with nodes := g.nodes.map fun m => if m.id = n.id then n else m }

/-- Mentions an identity: adds it at its first mention and keeps its place at later ones. -/
def addNode (g : Graph) (id : String) (m : Mention) : Graph × Except GraphFault Node :=
  match g.node? id with
  | none =>
    let n := Node.ofMention id g.defaultRole m
    ({ g with nodes := g.nodes ++ [n] }, .ok n)
  | some n =>
    let (n, result) := n.absorb m
    (g.replaceNode n, result.map fun _ => n)

/-- Adds an edge between two nodes unless there is one with the same key, and says whether it was
added. -/
def addEdge (g : Graph) (e : Edge) : Except GraphFault (Graph × Bool) :=
  if !g.hasNode e.source then .error (.unknownEndpoint e.key e.source)
  else if !g.hasNode e.target then .error (.unknownEndpoint e.key e.target)
  else if g.hasEdge e.key then .ok (g, false)
  else .ok ({ g with edges := g.edges ++ [e] }, true)

end Graph

end Vouch
