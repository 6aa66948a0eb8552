import Schemata.Keyed

/-! Directed graphs of named nodes: each node once, with the nodes that it points at. -/

namespace Schemata

/-- Nodes in order, with their targets. -/
abbrev Graph := Keyed (List String)

namespace Graph

def nodes (g : Graph) : List String := g.map (·.1)

/-- What a node points at; nothing for a node that the graph does not have. -/
def targets (g : Graph) (node : String) : List String := (g.lookup node).getD []

end Graph

end Schemata
