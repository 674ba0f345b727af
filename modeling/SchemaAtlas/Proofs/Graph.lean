import SchemaAtlas.Graph
import SchemaAtlas.Proofs.Links

/-!
The graph of a schema: its nodes are the tables, and exactly the relationships that do not join two
tables are left dangling.
-/

set_option autoImplicit false

namespace SchemaAtlas.Graph

variable {R : Type}

theorem any_putNode (node : Node) (nodes : List Node) (id : String) :
    (putNode node nodes).any (·.id = id) = (decide (node.id = id) || nodes.any (·.id = id)) := by
  induction nodes with
  | nil => simp [putNode]
  | cons other nodes ih =>
    by_cases same : other.id = node.id
    · simp [putNode, same]
    · simp only [putNode, if_neg same, List.any_cons, ih]
      exact Bool.or_left_comm _ _ _

theorem hasNode_addTable (graph : Graph) (table : Table R) (id : String) :
    (graph.addTable table).hasNode id = (decide (table.id = id) || graph.hasNode id) :=
  any_putNode _ _ _

theorem hasNode_foldl_addTable (tables : List (Table R)) (graph : Graph) (id : String) :
    (tables.foldl addTable graph).hasNode id = true ↔
      id ∈ tables.map (·.id) ∨ graph.hasNode id = true := by
  induction tables generalizing graph with
  | nil => simp
  | cons table tables ih =>
    simp only [List.foldl_cons, ih, hasNode_addTable, List.map_cons, List.mem_cons,
      Bool.or_eq_true, decide_eq_true_eq, eq_comm (a := id), or_left_comm, or_assoc]

theorem dangling_foldl_addTable (tables : List (Table R)) (graph : Graph) :
    (tables.foldl addTable graph).dangling = graph.dangling := by
  induction tables generalizing graph with
  | nil => rfl
  | cons table tables ih => exact ih (graph.addTable table)

@[simp] theorem nodes_addRelationship (graph : Graph) (relationship : Relationship) :
    (graph.addRelationship relationship).nodes = graph.nodes := by
  unfold addRelationship
  split <;> rfl

theorem dangling_foldl_addRelationship (relationships : List Relationship) (graph : Graph) :
    (relationships.foldl addRelationship graph).dangling =
      graph.dangling ++ relationships.filter fun relationship =>
        !(graph.hasNode relationship.source && graph.hasNode relationship.target) := by
  induction relationships generalizing graph with
  | nil => simp
  | cons relationship relationships ih =>
    -- An edge brings no node, so later relationships meet the same test.
    have nodes (id : String) :
        (graph.addRelationship relationship).hasNode id = graph.hasNode id := by
      simp [hasNode]
    simp only [List.foldl_cons, ih, nodes, List.filter_cons]
    unfold addRelationship
    split
    next joined => simp [joined]
    next apart => simp [apart]

/-- The nodes of a schema are its tables. -/
theorem hasNode_tables (schema : Schema R) (id : String) :
    (schema.tables.foldl addTable {}).hasNode id = decide (id ∈ schema.tableIds) := by
  rw [Bool.eq_iff_iff, hasNode_foldl_addTable]
  simp [hasNode, Schema.tableIds]

theorem dangling_ofSchema (schema : Schema R) :
    (ofSchema schema).dangling =
      schema.relationships.filter fun relationship => ¬ relationship.Joins schema.tableIds := by
  rw [ofSchema, dangling_foldl_addRelationship, dangling_foldl_addTable, List.nil_append]
  refine List.filter_congr fun relationship _ => ?_
  simp [hasNode_tables, Relationship.Joins]

theorem dangling_eq_nil {schema : Schema R}
    (joins : ∀ relationship ∈ schema.relationships, relationship.Joins schema.tableIds) :
    (ofSchema schema).dangling = [] := by
  rw [dangling_ofSchema, List.filter_eq_nil_iff]
  intro relationship member
  simp [joins relationship member]

end SchemaAtlas.Graph
