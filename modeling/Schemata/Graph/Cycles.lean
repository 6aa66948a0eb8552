import Schemata.Graph.Basic

/-! Depth-first search for cycles. A step back to a node on the current path closes a cycle; of the
cycles over the same nodes only the first is kept. -/

namespace Schemata.Graph

/-- What a search has seen and found so far. -/
structure Search where
  visited : List String
  cycles : List (List String)
  deriving DecidableEq, Repr

/-- Two paths over the same nodes. -/
def sameNodes (a b : List String) : Bool := a.all b.contains && b.all a.contains

/-- Keeps a cycle unless one over the same nodes is known. -/
def Search.record (s : Search) (cycle : List String) : Search :=
  if s.cycles.any (sameNodes cycle) then s else { s with cycles := s.cycles ++ [cycle] }

/-- Visits a node at the end of a path. No path visits a node twice, so the count of nodes is fuel
enough. -/
def visit (g : Graph) : Nat → List String → Search → String → Search
  | 0, _, s, _ => s
  | fuel + 1, path, s, node =>
    let path := path ++ [node]
    (g.targets node).foldl
      (fun s next =>
        if path.contains next then s.record (path.dropWhile (· != next) ++ [next])
        else if s.visited.contains next then s
        else visit g fuel path s next)
      { s with visited := node :: s.visited }

/-- Searches from every node that is not yet visited. -/
def search (g : Graph) : Search :=
  g.nodes.foldl
    (fun s node => if s.visited.contains node then s else g.visit (g.length + 1) [] s node)
    ⟨[], []⟩

/-- The cycles that the search finds; each starts and ends at the same node. -/
def cycles (g : Graph) : List (List String) := g.search.cycles

end Schemata.Graph
