import Vouch.Datum
import Vouch.Report

namespace Vouch

/-- A text that may be missing. -/
def Datum.ofText? (text : Option String) : Datum := (text.map Datum.text).getD .null

/-- A point in time that may be missing. -/
def Datum.ofTime? (t : Option Timestamp) : Datum := (t.map Datum.time).getD .null

def Datum.ofNat (n : Nat) : Datum := .int n

/-- The number of hops from the root. What cannot be reached is given as one below zero. -/
def Datum.ofDepth (depth : Option Nat) : Datum := (depth.map Datum.ofNat).getD (.int (-1))

/-- A node under the names that its parts have in print. -/
def Node.fields (n : Node) : List (String × Datum) :=
  [("id", .text n.id), ("alias", .ofText? n.label), ("role", .text n.role),
    ("joined_at", .ofTime? n.joinedAt), ("credential_count", .int n.credentials),
    ("verification_status", .ofText? n.status)]

def Edge.fields (e : Edge) : List (String × Datum) :=
  [("source", .text e.source), ("target", .text e.target), ("edge_type", .text e.kind.name),
    ("credential_id", .text e.credential), ("issued_at", .ofTime? e.issuedAt),
    ("bidirectional", .bool e.reciprocal)]

def Graph.fields (g : Graph) : List (String × Datum) :=
  [("root", .text g.root), ("built_at", .ofTime? g.builtAt), ("source", .text g.scope.name),
    ("node_count", .ofNat g.nodes.length), ("edge_count", .ofNat g.edges.length),
    ("nodes", .list (g.nodes.map fun n => .record n.fields)),
    ("edges", .list (g.edges.map fun e => .record e.fields)),
    ("skipped_credentials", .list (g.skipped.map .text))]

def Score.fields (s : Score Float) : List (String × Datum) :=
  [("aid", .text s.id), ("alias", .ofText? s.label), ("role", .text s.role),
    ("incoming_credentials", .ofNat s.standing.incoming),
    ("outgoing_credentials", .ofNat s.standing.outgoing),
    ("unique_issuers", .ofNat s.standing.issuers),
    ("bidirectional_relations", .ofNat s.standing.reciprocal),
    ("graph_depth", .ofDepth s.standing.depth), ("score", .float s.value),
    ("org_issued", .bool s.standing.rootIssued)]

/-- The columns of a table of scores. -/
def Score.columns : List String :=
  ["aid", "alias", "role", "incoming_credentials", "outgoing_credentials", "unique_issuers",
    "bidirectional_relations", "graph_depth", "score", "org_issued"]

def Summary.fields (s : Summary Float) : List (String × Datum) :=
  [("total_nodes", .ofNat s.nodes), ("total_edges", .ofNat s.edges),
    ("average_score", .float s.average), ("max_score", .float s.highest),
    ("min_score", .float s.lowest), ("median_depth", .float s.medianDepth),
    ("bidirectional_count", .ofNat s.reciprocal)]

end Vouch
