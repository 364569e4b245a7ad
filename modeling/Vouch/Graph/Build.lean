import Vouch.Credential.Chronicle
import Vouch.Credential.Sift
import Vouch.Graph.Neighborhood
import Vouch.Store

namespace Vouch

namespace Credential

/-- When a credential was issued, as it is written into a graph. -/
def joinedAt (c : Credential) : Option Timestamp := c.issuedAt.map Timestamp.ofUtc

/-- The relation that a credential states. -/
def edge (c : Credential) : Edge where
  source := c.issuer
  target := c.subject
  kind := c.kind
  credential := c.id
  issuedAt := c.joinedAt
  reciprocal := false

/-- What a credential says about its issuer. -/
def issuerMention (c : Credential) : Mention where
  joinedAt := c.joinedAt
  credentials := 1

/-- What a credential says about its subject. The root keeps its role whatever credentials say. -/
def subjectMention (root : String) (c : Credential) : Mention where
  label := c.displayName
  role := if c.subject = root then none else c.role
  joinedAt := c.joinedAt
  credentials := 1
  status := c.status?

end Credential

/-- Why no graph was built. -/
inductive BuildFault where
  | emptyRoot
  | negativeDepth (cause : NegativeDepth)
  | store (cause : StoreFault)
  | interrupted (cause : Interruption)
  | graph (cause : GraphFault)
  deriving DecidableEq

def BuildFault.message : BuildFault → String
  | .emptyRoot => "root_aid must be a non-empty identifier"
  | .negativeDepth cause => cause.message
  | .store cause => cause.message
  | .interrupted cause => cause.message
  | .graph cause => cause.message

namespace Graph

/-- Mentions an identity that can be mentioned. -/
def mention (g : Graph) (id : String) (m : Mention) : Except GraphFault Graph :=
  match g.addNode id m with
  | (g, .ok _) => .ok g
  | (_, .error fault) => .error fault

/-- Takes a credential in, unless one with the same issuer, subject and identifier is there. -/
def enter (g : Graph) (c : Credential) : Except GraphFault Graph :=
  if g.hasEdge c.key then .ok g
  else do
    let g ← if c.issuer = c.subject then pure g else g.mention c.issuer c.issuerMention
    let g ← g.mention c.subject (c.subjectMention g.root)
    let (g, _) ← g.addEdge c.edge
    return g

/-- How many edges are added by taking a credential in: none if one with the same issuer, subject
and identifier is there. -/
def edgesAdded (g : Graph) (c : Credential) : Nat := if g.hasEdge c.key then 0 else 1

/-- Takes a credential in and goes on counting the edges that are added. -/
def enterCounting (counted : Graph × Nat) (c : Credential) : Except GraphFault (Graph × Nat) :=
  (counted.1.enter c).map fun g => (g, counted.2 + counted.1.edgesAdded c)

/-- A graph that consists of the root. -/
def seed (naming : Naming) (root : String) : Graph :=
  let empty : Graph := { root, defaultRole := naming.defaultRole }
  (empty.addNode root { role := some naming.rootRole }).1

/-- The graph that credentials make, taken in one after the other. -/
def grown (naming : Naming) (root : String) (credentials : List Credential) :
    Except GraphFault Graph :=
  (Credential.chronicle credentials).foldlM enter (seed naming root)

/-- The graph that credentials make, and the count of the edges that were added. -/
def grownCounting (naming : Naming) (root : String) (credentials : List Credential) :
    Except GraphFault (Graph × Nat) :=
  (Credential.chronicle credentials).foldlM enterCounting (seed naming root, 0)

/-- Gives a label to every node without one. -/
def fillLabels (naming : Naming) (g : Graph) : Graph :=
  { g with
    nodes := g.nodes.map fun n =>
      { n with label := (filled n.label).or (some (shortLabel naming.labelLength n.id)) } }

/-- The finished graph of what a store lists. -/
def ofItems (naming : Naming) (root : String) (now : Reading) (items : List Item) :
    Except BuildFault Graph :=
  match sift items with
  | .error cause => .error (.interrupted cause)
  | .ok sifted =>
    match grown naming root sifted.credentials with
    | .error fault => .error (.graph fault)
    | .ok g =>
      .ok { g.mark.fillLabels naming with
        builtAt := some (.ofUtc now)
        skipped := sifted.malformed.map Malformed.message }

/-- Builds the graph of an organization from everything that a store holds. -/
def build (naming : Naming) (root : String) (now : Reading) (store : Store) :
    Except BuildFault Graph :=
  if root = "" then .error .emptyRoot
  else
    match store.list with
    | .error fault => .error (.store fault)
    | .ok items => ofItems naming root now items

/-- Builds the graph and cuts out what lies around one identity. -/
def buildAround (naming : Naming) (root : String) (now : Reading) (store : Store) (id : String)
    (depth : Int) : Except BuildFault Graph :=
  if root = "" then .error .emptyRoot
  else if depth < 0 then .error (.negativeDepth ⟨depth⟩)
  else (build naming root now store).map fun g => g.around naming id depth.toNat

end Graph

end Vouch
