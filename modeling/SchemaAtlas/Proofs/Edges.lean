import Mathlib.Data.List.Basic
import Mathlib.Data.List.Perm.Basic
import SchemaAtlas.Graph.Dot
import SchemaAtlas.Proofs.Firsts
import SchemaAtlas.Proofs.Keyed
import SchemaAtlas.Proofs.Graph

/-!
The edges of a graph: of all relationships that join the same two tables under the same id only the
last one is an edge. So a graph holds every relationship exactly if no two of them agree in these
three.
-/

set_option autoImplicit false

namespace SchemaAtlas.Graph

variable {R : Type}

/-- What tells the edges of a graph apart. -/
structure EdgeKey where
  source : String
  target : String
  id : String
  deriving DecidableEq, Repr

def edgeKey (link : Relationship) : EdgeKey where
  source := link.source
  target := link.target
  id := link.id

@[simp] theorem sameEdge_iff (a b : Relationship) : sameEdge a b = true ↔ edgeKey a = edgeKey b := by
  simp [sameEdge, edgeKey, and_assoc]

/-- The relationships without those that are the same edge as a later one. -/
def lastMentions : List Relationship → List Relationship
  | [] => []
  | link :: links =>
    if links.any (sameEdge link) then lastMentions links else link :: lastMentions links

theorem lastMentions_sublist (links : List Relationship) :
    (lastMentions links).Sublist links := by
  induction links with
  | nil => exact .slnil
  | cons link links ih =>
    rw [lastMentions]
    split
    next => exact ih.cons link
    next => exact ih.cons_cons link

theorem lastMentions_concat (links : List Relationship) (last : Relationship) :
    lastMentions (links ++ [last]) =
      (lastMentions links).filter (!sameEdge · last) ++ [last] := by
  induction links with
  | nil => simp [lastMentions]
  | cons link links ih =>
    by_cases later : links.any (sameEdge link) = true
    next => simp [lastMentions, later, ih]
    next =>
      by_cases same : sameEdge link last = true <;> simp [lastMentions, later, same, ih]

theorem lastMentions_eq_self_iff (links : List Relationship) :
    lastMentions links = links ↔ (links.map edgeKey).Nodup := by
  induction links with
  | nil => simp [lastMentions]
  | cons link links ih =>
    rw [lastMentions, List.map_cons, List.nodup_cons]
    have met : links.any (sameEdge link) = true ↔ edgeKey link ∈ links.map edgeKey := by
      simp only [List.any_eq_true, sameEdge_iff, List.mem_map, eq_comm (a := edgeKey link)]
    split
    next later =>
      have shorter := (lastMentions_sublist links).length_le
      refine iff_of_false (fun same => ?_) fun distinct => distinct.1 (met.mp later)
      rw [same, List.length_cons] at shorter
      omega
    next alone => simp [← met, ih, alone]

theorem lastMentions_length_eq_iff (links : List Relationship) :
    (lastMentions links).length = links.length ↔ (links.map edgeKey).Nodup := by
  rw [← lastMentions_eq_self_iff]
  exact ⟨(lastMentions_sublist links).eq_of_length, congrArg List.length⟩

theorem lastMentions_perm_iff (links : List Relationship) :
    (lastMentions links).Perm links ↔ (links.map edgeKey).Nodup := by
  rw [← lastMentions_eq_self_iff]
  exact ⟨fun same => (lastMentions_sublist links).eq_of_length same.length_eq, .of_eq⟩

/-- One more edge takes the place of the one with its key, or is new. -/
theorem putLink_perm (link : Relationship) {links : List Relationship}
    (distinct : (links.map edgeKey).Nodup) :
    (putLink link links).Perm (links.filter (!sameEdge · link) ++ [link]) := by
  induction links with
  | nil => simp [putLink]
  | cons other links ih =>
    obtain ⟨fresh, distinct⟩ := List.nodup_cons.mp (List.map_cons ▸ distinct)
    rw [putLink]
    split
    next same =>
      have others : links.filter (!sameEdge · link) = links := by
        refine List.filter_eq_self.mpr fun earlier member => ?_
        have apart : edgeKey earlier ≠ edgeKey link := fun again =>
          fresh (List.mem_map.mpr ⟨earlier, member, again.trans ((sameEdge_iff _ _).mp same).symm⟩)
        simpa [← sameEdge_iff] using apart
      have moved : ([link] ++ links).Perm (links ++ [link]) := List.perm_append_comm
      simpa [same, others] using moved
    next apart => simpa [apart] using (ih distinct).cons other

/-- Edges put one after the other are the last mentions of their keys. -/
theorem foldl_putLink_perm (links : List Relationship) :
    (links.foldl (fun held link => putLink link held) []).Perm (lastMentions links) ∧
      ((links.foldl (fun held link => putLink link held) []).map edgeKey).Nodup := by
  induction links using List.reverseRecOn with
  | nil => simp [lastMentions]
  | append_singleton links last ih =>
    obtain ⟨held, distinct⟩ := ih
    rw [List.foldl_concat, lastMentions_concat]
    have put := putLink_perm last distinct
    refine ⟨put.trans ((held.filter _).append_right [last]), ?_⟩
    rw [(put.map edgeKey).nodup_iff, List.map_append, List.nodup_append]
    refine ⟨((List.filter_sublist).map edgeKey).nodup distinct, by simp, ?_⟩
    intro key earlier other single same
    obtain ⟨link, kept, rfl⟩ := List.mem_map.mp earlier
    rw [List.map_singleton, List.mem_singleton] at single
    have apart := (List.mem_filter.mp kept).2
    simp [(sameEdge_iff link last).mpr (same.trans single)] at apart

theorem links_foldl_addTable (tables : List (Table R)) (graph : Graph) :
    (tables.foldl addTable graph).links = graph.links := by
  induction tables generalizing graph with
  | nil => rfl
  | cons table tables ih => exact ih (graph.addTable table)

theorem links_foldl_addRelationship (relationships : List Relationship) (graph : Graph) :
    (relationships.foldl addRelationship graph).links =
      (relationships.filter fun relationship =>
        graph.hasNode relationship.source && graph.hasNode relationship.target).foldl
          (fun held link => putLink link held) graph.links := by
  induction relationships generalizing graph with
  | nil => rfl
  | cons relationship relationships ih =>
    have nodes (id : String) :
        (graph.addRelationship relationship).hasNode id = graph.hasNode id := by
      simp [hasNode]
    simp only [List.foldl_cons, ih, nodes, List.filter_cons]
    unfold addRelationship
    split <;> rfl

theorem links_ofSchema (schema : Schema R) :
    (ofSchema schema).links =
      (schema.relationships.filter (·.Joins schema.tableIds)).foldl
        (fun held link => putLink link held) [] := by
  rw [ofSchema, links_foldl_addRelationship, links_foldl_addTable]
  congr 1
  refine List.filter_congr fun relationship _ => ?_
  rw [hasNode_tables, hasNode_tables, ← Bool.decide_and]
  rfl

theorem putNode_eq (node : Node) (nodes : List Node) :
    putNode node nodes = Keyed.put (·.id) nodes node := by
  induction nodes with
  | nil => rfl
  | cons other nodes ih => rw [putNode, Keyed.put, ih]

theorem nodup_ids_addTables (tables : List (Table R)) (graph : Graph)
    (distinct : (graph.nodes.map (·.id)).Nodup) :
    ((tables.foldl addTable graph).nodes.map (·.id)).Nodup := by
  induction tables generalizing graph with
  | nil => exact distinct
  | cons table tables ih =>
    refine ih _ ?_
    rw [addTable, putNode_eq]
    exact Keyed.nodup_keys_put _ distinct

@[simp] theorem nodes_foldl_addRelationship (relationships : List Relationship) (graph : Graph) :
    (relationships.foldl addRelationship graph).nodes = graph.nodes := by
  induction relationships generalizing graph with
  | nil => rfl
  | cons relationship relationships ih => rw [List.foldl_cons, ih, nodes_addRelationship]

theorem nodup_ids (schema : Schema R) : ((ofSchema schema).nodes.map (·.id)).Nodup := by
  rw [ofSchema, nodes_foldl_addRelationship]
  exact nodup_ids_addTables schema.tables {} List.nodup_nil

theorem mem_ids_iff (schema : Schema R) (id : String) :
    id ∈ (ofSchema schema).nodes.map (·.id) ↔ id ∈ schema.tableIds := by
  have node := hasNode_tables schema id
  rw [ofSchema, nodes_foldl_addRelationship, ← decide_eq_true_iff (p := id ∈ schema.tableIds), ← node]
  simp [hasNode]

theorem mem_distinct {name : String} {names : List String} :
    name ∈ distinct names ↔ name ∈ names := by
  induction names with
  | nil => simp [distinct]
  | cons first names ih => by_cases same : name = first <;> simp [distinct, ih, same]

theorem nodup_distinct (names : List String) : (distinct names).Nodup := by
  induction names with
  | nil => exact List.nodup_nil
  | cons first names ih => exact List.nodup_cons.mpr ⟨by simp, ih.filter _⟩

/-- A list sorted by a key that takes only the listed values. -/
theorem flatMap_filter_perm {α : Type} (key : α → String) {keys : List String}
    (unique : keys.Nodup) {items : List α} (listed : ∀ item ∈ items, key item ∈ keys) :
    (keys.flatMap fun k => items.filter (key · = k)).Perm items := by
  induction keys generalizing items with
  | nil =>
    have none : items = [] := List.eq_nil_iff_forall_not_mem.mpr fun item member => by
      simpa using listed item member
    simp [none]
  | cons first keys ih =>
    obtain ⟨fresh, unique⟩ := List.nodup_cons.mp unique
    have others : ∀ item ∈ items.filter (key · ≠ first), key item ∈ keys := by
      intro item member
      obtain ⟨member, apart⟩ := List.mem_filter.mp member
      simpa [of_decide_eq_true apart] using listed item member
    have rest : (keys.flatMap fun k => (items.filter (key · ≠ first)).filter (key · = k)) =
        keys.flatMap fun k => items.filter (key · = k) := by
      refine List.flatMap_congr fun k member => ?_
      rw [List.filter_filter]
      refine List.filter_congr fun item _ => ?_
      have apart : k ≠ first := fun same => fresh (same ▸ member)
      by_cases here : key item = k <;> simp [here, apart]
    rw [List.flatMap_cons, ← rest]
    refine ((ih unique others).append_left _).trans ?_
    simpa using List.filter_append_perm (fun item => decide (key item = first)) items

/-- The edges in their order are the links of the graph, each once. -/
theorem edges_perm_links (schema : Schema R) :
    (ofSchema schema).edges.Perm (ofSchema schema).links := by
  have bySource (node : Node) :
      ((ofSchema schema).referenced node.id).flatMap (fun target =>
        (ofSchema schema).links.filter fun link => link.source = node.id ∧ link.target = target)
        |>.Perm ((ofSchema schema).links.filter (·.source = node.id)) := by
    have targets : ∀ link ∈ (ofSchema schema).links.filter (·.source = node.id),
        link.target ∈ (ofSchema schema).referenced node.id := fun link member =>
      mem_distinct.mpr (List.mem_map_of_mem member)
    have sorted := flatMap_filter_perm Relationship.target (nodup_distinct _) targets
    simpa [referenced, List.filter_filter, Bool.and_comm] using sorted
  have sources : ∀ link ∈ (ofSchema schema).links,
      link.source ∈ (ofSchema schema).nodes.map (·.id) := by
    intro link member
    rw [links_ofSchema] at member
    have kept := (foldl_putLink_perm _).1.subset member
    have joins := (List.mem_filter.mp ((lastMentions_sublist _).subset kept)).2
    exact (mem_ids_iff schema link.source).mpr (of_decide_eq_true joins).1
  calc (ofSchema schema).edges
    _ |>.Perm ((ofSchema schema).nodes.flatMap fun node =>
          (ofSchema schema).links.filter (·.source = node.id)) :=
        List.Perm.flatMap_left _ fun node _ => bySource node
    _ = ((ofSchema schema).nodes.map (·.id)).flatMap fun id =>
          (ofSchema schema).links.filter (·.source = id) := by rw [List.flatMap_map]
    _ |>.Perm (ofSchema schema).links := flatMap_filter_perm Relationship.source (nodup_ids schema) sources

/-- The relationships of a schema with a table at either end. -/
def joined (schema : Schema R) : List Relationship :=
  schema.relationships.filter (·.Joins schema.tableIds)

theorem edges_perm (schema : Schema R) :
    (ofSchema schema).edges.Perm (lastMentions (joined schema)) := by
  refine (edges_perm_links schema).trans ?_
  rw [links_ofSchema]
  exact (foldl_putLink_perm _).1

theorem length_links (schema : Schema R) :
    (ofSchema schema).links.length = (lastMentions (joined schema)).length :=
  (edges_perm_links schema).length_eq.symm.trans (edges_perm schema).length_eq

theorem joined_append_dangling_perm (schema : Schema R) :
    (joined schema ++ (ofSchema schema).dangling).Perm schema.relationships := by
  rw [dangling_ofSchema]
  simpa [joined] using List.filter_append_perm
    (fun relationship => decide (relationship.Joins schema.tableIds)) schema.relationships

/-- The edges of a graph are the last mentions of the keys of the relationships that join two
tables. With the dangling ones they are all relationships of the schema exactly if no two that join
tables have the same key, and so it is with the counts and with the lines in the DOT language. -/
theorem every_relationship_drawn_iff (schema : Schema R) :
    (ofSchema schema).edges.Perm (lastMentions (joined schema)) ∧
      (((ofSchema schema).edges ++ (ofSchema schema).dangling).Perm schema.relationships ↔
        ((joined schema).map edgeKey).Nodup) ∧
      (((ofSchema schema).stats schema).edges + ((ofSchema schema).stats schema).dangling =
          schema.relationships.length ↔
        ((joined schema).map edgeKey).Nodup) ∧
      ((ofSchema schema).dotLines.length =
          (ofSchema schema).nodes.length + (joined schema).length + 3 ↔
        ((joined schema).map edgeKey).Nodup) := by
  have parts := joined_append_dangling_perm schema
  have drawn := edges_perm schema
  refine ⟨drawn, ?_, ?_, ?_⟩
  next =>
    rw [← lastMentions_perm_iff]
    constructor
    next =>
      intro all
      have same := (drawn.append_right _).symm.trans (all.trans parts.symm)
      exact (List.perm_append_right_iff _).mp same
    next =>
      intro all
      exact ((drawn.trans all).append_right _).trans parts
  next =>
    have total := parts.length_eq
    rw [List.length_append] at total
    rw [← lastMentions_length_eq_iff, stats, length_links, ← total]
    exact Nat.add_right_cancel_iff
  next =>
    have lines : (ofSchema schema).dotLines.length =
        (ofSchema schema).nodes.length + (lastMentions (joined schema)).length + 3 := by
      simp [dotLines, drawn.length_eq]
      omega
    rw [← lastMentions_length_eq_iff, lines]
    omega

/-- Two keys of one column in `a` that point at two columns of `b`. -/
def forked : Schema Int where
  tables :=
    [{ id := "a", name := "a", position := .origin }, { id := "b", name := "b", position := .origin }]
  relationships := [Relationship.link "a" "k" "b" "x", Relationship.link "a" "k" "b" "y"]

/-- Of two links of the same column to the same table the graph holds the second one only. -/
theorem earlier_link_not_drawn :
    forked.tableIds.Nodup ∧
      (ofSchema forked).edges = [Relationship.link "a" "k" "b" "y"] ∧
      (ofSchema forked).dangling = [] ∧
      ¬ ((ofSchema forked).edges ++ (ofSchema forked).dangling).Perm forked.relationships := by
  have drawn : (ofSchema forked).edges = [Relationship.link "a" "k" "b" "y"] := by decide +kernel
  have dangling : (ofSchema forked).dangling = [] := by decide +kernel
  refine ⟨by decide, drawn, dangling, fun all => ?_⟩
  rw [drawn, dangling] at all
  exact absurd all.length_eq (by decide)

end SchemaAtlas.Graph
