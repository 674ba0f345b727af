import SchemaAtlas.Schema.Document

/-!
The graph of a schema: its tables are the nodes, and its relationships are edges from the owning to
the referenced table. Two relationships with the same ends and the same id are one edge, which
carries the columns of the later one.
-/

set_option autoImplicit false

namespace SchemaAtlas

structure Node where
  id : String
  name : String
  columns : Nat
  indexes : Nat
  deriving DecidableEq, Repr

/-- Nodes in the order in which their ids first came, edges in the order in which they were first
added, and the relationships that do not join two nodes. -/
structure Graph where
  nodes : List Node := []
  links : List Relationship := []
  dangling : List Relationship := []
  deriving DecidableEq, Repr

namespace Graph

variable {R : Type}

/-- Whether two relationships are the same edge. -/
def sameEdge (a b : Relationship) : Bool :=
  a.source = b.source && a.target = b.target && a.id = b.id

def putNode (node : Node) : List Node → List Node
  | [] => [node]
  | other :: nodes => if other.id = node.id then node :: nodes else other :: putNode node nodes

def putLink (link : Relationship) : List Relationship → List Relationship
  | [] => [link]
  | other :: links => if sameEdge other link then link :: links else other :: putLink link links

def hasNode (graph : Graph) (id : String) : Bool := graph.nodes.any (·.id = id)

def addTable (graph : Graph) (table : Table R) : Graph :=
  let node : Node :=
    { id := table.id, name := table.name, columns := table.columns.length
      indexes := table.indexes.length }
  { graph with nodes := putNode node graph.nodes }

def addRelationship (graph : Graph) (relationship : Relationship) : Graph :=
  if graph.hasNode relationship.source && graph.hasNode relationship.target then
    { graph with links := putLink relationship graph.links }
  else { graph with dangling := graph.dangling ++ [relationship] }

def ofSchema (schema : Schema R) : Graph :=
  schema.relationships.foldl addRelationship (schema.tables.foldl addTable {})

/-- The members of a list without those that came before. -/
def distinct : List String → List String
  | [] => []
  | name :: names => name :: (distinct names).filter (· ≠ name)

/-- The tables that a table points at, in the order in which it first does. -/
def referenced (graph : Graph) (id : String) : List String :=
  distinct ((graph.links.filter (·.source = id)).map (·.target))

def referencing (graph : Graph) (id : String) : List String :=
  distinct ((graph.links.filter (·.target = id)).map (·.source))

/-- The edges by source in node order, then by target in the order in which the source first points
at it. -/
def edges (graph : Graph) : List Relationship :=
  graph.nodes.flatMap fun node =>
    (graph.referenced node.id).flatMap fun target =>
      graph.links.filter fun link => link.source = node.id ∧ link.target = target

/-- A set of tables together with their neighbours in either direction. -/
def widen (graph : Graph) (ids : List String) : List String :=
  distinct (ids ++ ids.flatMap fun id => graph.referenced id ++ graph.referencing id)

/-- The tables connected to a table, itself among them. Every step but the last reaches a new
table. -/
def component (graph : Graph) (id : String) : List String :=
  (List.range graph.nodes.length).foldl (fun ids _ => graph.widen ids) [id]

/-- The other tables that are connected to a table in either direction. -/
def related (graph : Graph) (id : String) : List String :=
  if graph.hasNode id then (graph.component id).filter (· ≠ id) else []

/-- Whether no edge begins or ends at a table. -/
def isIsolated (graph : Graph) (id : String) : Bool :=
  graph.hasNode id && graph.links.all fun link => link.source ≠ id ∧ link.target ≠ id

/-- The tables of a schema without a relationship, in order. -/
def isolated (graph : Graph) (schema : Schema R) : List String :=
  schema.tableIds.filter graph.isIsolated

/-- The number of connected parts: nodes that no earlier node is connected to. -/
def componentCount (graph : Graph) : Nat :=
  let ids := graph.nodes.map (·.id)
  (ids.filter fun id =>
    (ids.takeWhile (· ≠ id)).all fun earlier => earlier ∉ graph.component id).length

structure Stats where
  nodes : Nat
  edges : Nat
  components : Nat
  isolated : Nat
  dangling : Nat
  deriving DecidableEq, Repr

def stats (graph : Graph) (schema : Schema R) : Stats where
  nodes := graph.nodes.length
  edges := graph.links.length
  components := graph.componentCount
  isolated := (graph.isolated schema).length
  dangling := graph.dangling.length

def Node.toJson (node : Node) : Json R :=
  .object
    [("id", .string node.id), ("name", .string node.name), ("columnCount", .integer node.columns),
      ("indexCount", .integer node.indexes)]

def toJson (graph : Graph) : Json R :=
  .object
    [("nodes", .array (graph.nodes.map Node.toJson)),
      ("edges", .array (graph.edges.map Relationship.toJson))]

def Stats.toJson (stats : Stats) : Json R :=
  .object
    [("total_nodes", .integer stats.nodes), ("total_edges", .integer stats.edges),
      ("connected_components", .integer stats.components),
      ("isolated_tables", .integer stats.isolated),
      ("dangling_relationships", .integer stats.dangling)]

end Graph

end SchemaAtlas
