import Vouch.Datum.Display
import Vouch.Graph.Distance
import Vouch.Settings

namespace Vouch

/-- A number of hops below zero was asked for. -/
structure NegativeDepth where
  depth : Int
  deriving DecidableEq

def NegativeDepth.message (fault : NegativeDepth) : String :=
  match (Datum.int fault.depth).display with
  | .ok text => "depth must be >= 0, got " ++ text
  | .error cause => cause.message

namespace Graph

/-- A graph with nothing in it but one identity about which nothing is known. -/
def bare (g : Graph) (naming : Naming) (id : String) : Graph :=
  let empty : Graph := {
    root := g.root
    builtAt := g.builtAt
    defaultRole := naming.defaultRole
    skipped := g.skipped }
  (empty.addNode id { label := some (shortLabel naming.labelLength id) }).1

/-- What lies within some number of hops around an identity. No hop at all leaves the identity
alone, without its edges to itself. -/
def around (g : Graph) (naming : Naming) (id : String) (hops : Nat) : Graph :=
  let part :=
    if !g.hasNode id then g.bare naming id
    else if hops = 0 then g.restrict [id] false
    else g.restrict (g.within id hops) true
  { part with scope := .neighborhood }

/-- What lies around an identity. The number of hops must not be negative. -/
def neighborhood (g : Graph) (naming : Naming) (id : String) (depth : Int) :
    Except NegativeDepth Graph :=
  if depth < 0 then .error ⟨depth⟩ else .ok (g.around naming id depth.toNat)

end Graph

end Vouch
