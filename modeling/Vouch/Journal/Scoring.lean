import Vouch.Decimal.Fixed
import Vouch.Journal.Building
import Vouch.Report

namespace Vouch

/-- The value that no later one exceeds, counted from the first on. Zero stands for none. -/
def firstGreatest (values : List Float) : Float :=
  match values with
  | [] => 0.0
  | x :: xs => xs.foldl (fun best y => if best < y then y else best) x

namespace Graph

/-- What a search for all distances leaves behind. -/
def depthsJournal (g : Graph) : List Entry :=
  if g.hasNode g.root then
    [⟨.debug, .distance, "Depths computed for " ++ toString g.nodes.length ++ " nodes: " ++
      toString (g.depths.countP (·.2.isSome)) ++ " reachable from root."⟩]
  else []

/-- What scoring all nodes leaves behind. -/
def scoresJournal (g : Graph) (w : Weights Float) : List Entry :=
  g.depthsJournal ++
    [⟨.debug, .score, "Trust scores computed for " ++ toString g.nodes.length ++
      " nodes. Max score: " ++
      Decimal.writeFixed 3 (firstGreatest ((g.scores w).map Score.value)) ++ "."⟩]

/-- What ranking leaves behind. Nothing is scored where nobody is asked for. -/
def topJournal (g : Graph) (w : Weights Float) (count : Int) : List Entry :=
  if count ≤ 0 then [] else g.scoresJournal w

/-- What summing a graph up leaves behind. -/
def summaryJournal (g : Graph) (w : Weights Float) : List Entry :=
  if g.isLone then []
  else
    let s := g.summary w
    g.scoresJournal w ++
      [⟨.info, .score, "Trust summary: " ++ toString s.nodes ++ " nodes, " ++ toString s.edges ++
        " edges, mean score " ++ Decimal.writeFixed 3 s.average ++ ", median depth " ++
        Decimal.writeFixed 1 s.medianDepth ++ "."⟩]

/-- What reporting on a graph leaves behind. -/
def reportJournal (settings : Settings) (g : Graph) (count : Option Int) : List Entry :=
  let r := g.report settings count
  g.scoresJournal settings.weights ++
    g.topJournal settings.weights (count.getD settings.listed) ++
    g.summaryJournal settings.weights ++
    [⟨.info, .report, "Trust pipeline complete (" ++ g.scope.name ++ " graph): " ++
      toString r.scores.length ++ " scores, top " ++ toString r.top.length ++ " returned."⟩]

end Graph

namespace Inquiry

/-- What building the graph that is asked for leaves behind. -/
def graphJournal (q : Inquiry) (settings : Settings) (now : Reading) (store : Store) :
    List Entry :=
  match q.around with
  | none => Graph.buildJournal settings.naming q.root now store
  | some id =>
    Graph.buildAroundJournal settings.naming q.root now store id (q.depth.getD settings.hops)

/-- What a report leaves behind. -/
def journal (q : Inquiry) (settings : Settings) (now : Reading) (store : Store)
    (count : Option Int) : List Entry :=
  q.graphJournal settings now store ++
    match q.graph settings now store with
    | .error _ => []
    | .ok g => g.reportJournal settings count

end Inquiry

end Vouch
