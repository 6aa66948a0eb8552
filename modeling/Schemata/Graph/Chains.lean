import Schemata.Graph.Basic

/-! Lengths of the longest chains of edges in a graph without cycles. -/

namespace Schemata.Graph

/-- Known chain lengths, in the order in which they were settled. -/
abbrev ChainLengths := List (String × Nat)

/-- One more than the longest of the known chains of the targets. -/
def chainOver (known : ChainLengths) (targets : List String) : Nat :=
  targets.foldl (fun longest next => max longest ((known.lookup next).getD 0 + 1)) 0

/-- Settles a node after everything that it points at. Without cycles no way down is longer than the
count of nodes. -/
def settle (g : Graph) : Nat → ChainLengths → String → ChainLengths
  | 0, known, _ => known
  | fuel + 1, known, node =>
    if (known.lookup node).isSome then known
    else
      let known := (g.targets node).foldl (settle g fuel) known
      known ++ [(node, chainOver known (g.targets node))]

/-- The length of the longest chain of edges from every node. -/
def chainLengths (g : Graph) : ChainLengths := g.nodes.foldl (g.settle (g.length + 1)) []

end Schemata.Graph
