import SchemaAtlas.Graph

/-!
Graphs in the DOT language: one statement per line, names and labels between double quotes as they
are.
-/

set_option autoImplicit false

namespace SchemaAtlas.Graph

def dotNode (node : Node) : String := "  \"" ++ node.id ++ "\";"

def dotEdge (link : Relationship) : String :=
  "  \"" ++ link.source ++ "\" -> \"" ++ link.target ++ "\" [label=\"" ++ link.sourceColumn ++
    " -> " ++ link.targetColumn ++ "\"];"

def dotLines (graph : Graph) : List String :=
  ["digraph schema \x7b", "  node [shape=box];"] ++ graph.nodes.map dotNode ++
    graph.edges.map dotEdge ++ ["\x7d"]

def toDot (graph : Graph) : String := joinWith "\n" graph.dotLines

end SchemaAtlas.Graph
