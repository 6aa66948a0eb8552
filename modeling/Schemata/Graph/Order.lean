import Schemata.Graph.Basic

/-! An order of the nodes in which every node comes after the ones that it points at. -/

namespace Schemata.Graph

/-- Keeps the edges between different nodes of the graph. -/
def proper (g : Graph) : Graph :=
  g.map fun (node, targets) =>
    (node, targets.filter fun next => g.nodes.contains next && next != node)

/-- Takes, again and again, the first node whose targets are all taken. When there is none, the
remaining nodes follow as they stand. -/
def takeReady : Nat → Graph → List String → List String
  | 0, _, taken => taken
  | fuel + 1, pending, taken =>
    match pending.find? fun entry => entry.2.all taken.contains with
    | some entry =>
      takeReady fuel (pending.without entry.1) (taken ++ [entry.1])
    | none => taken ++ pending.nodes

/-- The nodes, targets first. Nodes that do not depend on each other keep their order; nodes from
which a cycle can be reached come last. -/
def dependencyOrder (g : Graph) : List String := takeReady g.length g.proper []

end Schemata.Graph
