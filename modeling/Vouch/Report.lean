import Vouch.Graph.Build
import Vouch.Score.Ranking
import Vouch.Score.Summary

namespace Vouch

/-- Everything that is computed from one reading of a store. -/
structure Report where
  graph : Graph
  scores : List (Score Float)
  top : List (Score Float)
  summary : Summary Float

/-- Scores a graph. -/
def Graph.report (settings : Settings) (g : Graph) (count : Option Int) : Report where
  graph := g
  scores := g.scores settings.weights
  top := g.top settings.weights (count.getD settings.listed)
  summary := g.summary settings.weights

/-- What is asked of a store: the root of the organization, the identity whose surroundings are
wanted if not everything is, and how far they reach. -/
structure Inquiry where
  root : String
  around : Option String := none
  depth : Option Int := none

namespace Inquiry

/-- Builds the graph that is asked for. -/
def graph (q : Inquiry) (settings : Settings) (now : Reading) (store : Store) :
    Except BuildFault Graph :=
  match q.around with
  | none => Graph.build settings.naming q.root now store
  | some id =>
    Graph.buildAround settings.naming q.root now store id (q.depth.getD settings.hops)

/-- Builds the graph that is asked for and scores it. -/
def report (q : Inquiry) (settings : Settings) (now : Reading) (store : Store)
    (count : Option Int) : Except BuildFault Report :=
  (q.graph settings now store).map fun g => g.report settings count

end Inquiry

end Vouch
