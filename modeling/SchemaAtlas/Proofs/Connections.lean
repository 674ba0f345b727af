import Mathlib.Data.List.NodupEquivFin
import Mathlib.Data.List.Perm.Subperm
import Mathlib.Logic.Relation
import Mathlib.SetTheory.Cardinal.Finite
import SchemaAtlas.Proofs.Edges

/-!
Which tables of a schema are connected: those with a path of relationships between them, in whatever
direction each one is followed. The search of a graph finds all of them, and its number of parts is
the number of classes into which they fall.
-/

set_option autoImplicit false

namespace SchemaAtlas.Graph

theorem mem_referenced {graph : Graph} {id other : String} :
    other ∈ graph.referenced id ↔ ∃ link ∈ graph.links, link.source = id ∧ link.target = other := by
  simp [referenced, mem_distinct, and_assoc]

theorem mem_referencing {graph : Graph} {id other : String} :
    other ∈ graph.referencing id ↔ ∃ link ∈ graph.links, link.source = other ∧ link.target = id := by
  simp [referencing, mem_distinct, and_assoc, and_comm]

theorem mem_widen {graph : Graph} {ids : List String} {other : String} :
    other ∈ graph.widen ids ↔
      other ∈ ids ∨ ∃ id ∈ ids, other ∈ graph.referenced id ∨ other ∈ graph.referencing id := by
  simp [widen, mem_distinct]

theorem exists_mem_lastMentions {links : List Relationship} {link : Relationship}
    (member : link ∈ links) : ∃ last ∈ lastMentions links, edgeKey last = edgeKey link := by
  induction links generalizing link with
  | nil => cases member
  | cons first links ih =>
    rw [lastMentions]
    split
    next again =>
      rcases List.mem_cons.mp member with rfl | member
      · obtain ⟨later, within, same⟩ := List.any_eq_true.mp again
        obtain ⟨last, kept, key⟩ := ih within
        exact ⟨last, kept, key.trans ((sameEdge_iff _ _).mp same).symm⟩
      · exact ih member
    next =>
      rcases List.mem_cons.mp member with rfl | member
      · exact ⟨_, .head _, rfl⟩
      · obtain ⟨last, kept, key⟩ := ih member
        exact ⟨last, .tail _ kept, key⟩

variable {R : Type}

/-- A relationship of the schema leads from the first table to the second one. -/
def PointsAt (schema : Schema R) (owner other : String) : Prop :=
  ∃ relationship ∈ joined schema, relationship.source = owner ∧ relationship.target = other

/-- A relationship that is followed in one direction or the other. -/
def Touches (schema : Schema R) (id other : String) : Prop :=
  PointsAt schema id other ∨ PointsAt schema other id

/-- A path of relationships, each of which is followed in one direction or the other. -/
def Connected (schema : Schema R) : String → String → Prop :=
  Relation.ReflTransGen (Touches schema)

variable {schema : Schema R} {id other : String}

theorem pointsAt_iff : PointsAt schema id other ↔
    id ∈ schema.tableIds ∧ other ∈ schema.tableIds ∧
      ∃ relationship ∈ schema.relationships,
        relationship.source = id ∧ relationship.target = other := by
  constructor
  next =>
    rintro ⟨relationship, member, rfl, rfl⟩
    obtain ⟨declared, joins⟩ := List.mem_filter.mp member
    have ends := of_decide_eq_true joins
    exact ⟨ends.1, ends.2, relationship, declared, rfl, rfl⟩
  next =>
    rintro ⟨source, target, relationship, declared, rfl, rfl⟩
    have joins : relationship.Joins schema.tableIds := ⟨source, target⟩
    exact ⟨relationship, List.mem_filter.mpr ⟨declared, decide_eq_true joins⟩, rfl, rfl⟩

theorem Touches.symm (touches : Touches schema id other) : Touches schema other id := Or.symm touches

theorem Touches.known (touches : Touches schema id other) : other ∈ schema.tableIds := by
  rcases touches with forward | backward
  · exact (pointsAt_iff.mp forward).2.1
  · exact (pointsAt_iff.mp backward).1

theorem Connected.symm (connected : Connected schema id other) : Connected schema other id := by
  induction connected with
  | refl => exact .refl
  | tail _ touches back => exact back.head touches.symm

theorem Connected.known (connected : Connected schema id other) (start : id ∈ schema.tableIds) :
    other ∈ schema.tableIds := by
  cases connected with
  | refl => exact start
  | tail _ touches => exact touches.known

/-- The classes of connected tables. -/
def connection (schema : Schema R) : Setoid { id // id ∈ schema.tableIds } where
  r table other := Connected schema table.1 other.1
  iseqv := ⟨fun _ => .refl, Connected.symm, Relation.ReflTransGen.trans⟩

/-- Of the relationships that are the same edge one is kept, and it has the same ends. -/
theorem exists_link_iff (schema : Schema R) (owner other : String) :
    (∃ link ∈ (ofSchema schema).links, link.source = owner ∧ link.target = other) ↔
      PointsAt schema owner other := by
  have kept : (ofSchema schema).links.Perm (lastMentions (joined schema)) :=
    (edges_perm_links schema).symm.trans (edges_perm schema)
  constructor
  next =>
    rintro ⟨link, member, ends⟩
    exact ⟨link, (lastMentions_sublist _).subset (kept.mem_iff.mp member), ends⟩
  next =>
    rintro ⟨relationship, member, rfl, rfl⟩
    obtain ⟨last, listed, key⟩ := exists_mem_lastMentions member
    have source := congrArg EdgeKey.source key
    have target := congrArg EdgeKey.target key
    exact ⟨last, kept.mem_iff.mpr listed, source, target⟩

theorem mem_referenced_iff (schema : Schema R) (id other : String) :
    other ∈ (ofSchema schema).referenced id ↔ PointsAt schema id other := by
  rw [mem_referenced, exists_link_iff]

theorem mem_referencing_iff (schema : Schema R) (id other : String) :
    other ∈ (ofSchema schema).referencing id ↔ PointsAt schema other id := by
  rw [mem_referencing, exists_link_iff]

theorem mem_widen_iff (schema : Schema R) {ids : List String} :
    other ∈ (ofSchema schema).widen ids ↔ other ∈ ids ∨ ∃ id ∈ ids, Touches schema id other := by
  simp only [mem_widen, mem_referenced_iff, mem_referencing_iff, Touches]

/-- The tables that are found in a number of steps. -/
def reached (graph : Graph) (id : String) (steps : Nat) : List String :=
  (List.range steps).foldl (fun ids _ => graph.widen ids) [id]

theorem component_eq_reached (graph : Graph) (id : String) :
    graph.component id = graph.reached id graph.nodes.length := rfl

@[simp] theorem reached_succ (graph : Graph) (id : String) (steps : Nat) :
    graph.reached id (steps + 1) = graph.widen (graph.reached id steps) := by
  simp [reached, List.range_succ]

theorem self_mem_reached (graph : Graph) (id : String) (steps : Nat) :
    id ∈ graph.reached id steps := by
  induction steps with
  | zero => exact .head _
  | succ steps ih => exact reached_succ graph id steps ▸ mem_widen.mpr (.inl ih)

theorem nodup_reached (graph : Graph) (id : String) (steps : Nat) :
    (graph.reached id steps).Nodup := by
  cases steps with
  | zero => exact List.nodup_singleton id
  | succ steps => exact reached_succ graph id steps ▸ nodup_distinct _

theorem connected_of_mem_reached {steps : Nat}
    (member : other ∈ (ofSchema schema).reached id steps) : Connected schema id other := by
  induction steps generalizing other with
  | zero => exact List.mem_singleton.mp member ▸ .refl
  | succ steps ih =>
    rw [reached_succ, mem_widen_iff] at member
    rcases member with earlier | ⟨between, earlier, touches⟩
    · exact ih earlier
    · exact (ih earlier).tail touches

/-- No relationship leads out of a set of tables. -/
def IsClosed (schema : Schema R) (ids : List String) : Prop :=
  ∀ id ∈ ids, ∀ other, Touches schema id other → other ∈ ids

theorem IsClosed.reached_succ {steps : Nat}
    (closed : IsClosed schema ((ofSchema schema).reached id steps)) :
    IsClosed schema ((ofSchema schema).reached id (steps + 1)) := by
  have same (other : String) : other ∈ (ofSchema schema).reached id (steps + 1) ↔
      other ∈ (ofSchema schema).reached id steps := by
    rw [Graph.reached_succ, mem_widen_iff]
    refine or_iff_left_of_imp ?_
    rintro ⟨between, member, touches⟩
    exact closed between member other touches
  intro between member other touches
  exact (same other).mpr (closed between ((same between).mp member) other touches)

/-- A search that is not at its end finds another table in the next step. -/
theorem length_reached_lt {steps : Nat}
    (unfinished : ¬ IsClosed schema ((ofSchema schema).reached id steps)) :
    ((ofSchema schema).reached id steps).length <
      ((ofSchema schema).reached id (steps + 1)).length := by
  simp only [IsClosed, not_forall] at unfinished
  obtain ⟨between, member, next, touches, new⟩ := unfinished
  have more : next :: (ofSchema schema).reached id steps ⊆
      (ofSchema schema).reached id (steps + 1) := by
    intro found listed
    rw [reached_succ, mem_widen_iff]
    rcases List.mem_cons.mp listed with rfl | listed
    · exact .inr ⟨between, member, touches⟩
    · exact .inl listed
  have distinct := List.nodup_cons.mpr ⟨new, nodup_reached (ofSchema schema) id steps⟩
  exact (distinct.subperm more).length_le

theorem reached_closed_or_grows (schema : Schema R) (id : String) (steps : Nat) :
    IsClosed schema ((ofSchema schema).reached id steps) ∨
      steps < ((ofSchema schema).reached id steps).length := by
  -- Once closed the search stays so, and until then each step adds a table to the ones it has.
  induction steps with
  | zero => exact .inr Nat.one_pos
  | succ steps ih =>
    by_cases closed : IsClosed schema ((ofSchema schema).reached id steps)
    next => exact .inl closed.reached_succ
    next => exact .inr (Nat.lt_of_le_of_lt (ih.resolve_left closed) (length_reached_lt closed))

/-- There are no more tables to find than the graph has nodes, so the search comes to its end. -/
theorem isClosed_component (known : id ∈ schema.tableIds) :
    IsClosed schema ((ofSchema schema).component id) := by
  rw [component_eq_reached]
  refine (reached_closed_or_grows schema id _).resolve_right (Nat.not_lt.mpr ?_)
  have nodes : (ofSchema schema).reached id (ofSchema schema).nodes.length ⊆
      (ofSchema schema).nodes.map (·.id) := fun other member =>
    (mem_ids_iff schema other).mpr ((connected_of_mem_reached member).known known)
  have bound := ((nodup_reached _ _ _).subperm nodes).length_le
  rwa [List.length_map] at bound

theorem mem_component_iff (known : id ∈ schema.tableIds) :
    other ∈ (ofSchema schema).component id ↔ Connected schema id other := by
  constructor
  next => exact connected_of_mem_reached
  next =>
    intro connected
    induction connected with
    | refl => exact self_mem_reached _ _ _
    | tail _ touches earlier => exact isClosed_component known _ earlier _ touches

theorem hasNode_ofSchema (schema : Schema R) (id : String) :
    (ofSchema schema).hasNode id = decide (id ∈ schema.tableIds) := by
  rw [← hasNode_tables, hasNode, ofSchema, nodes_foldl_addRelationship, hasNode]

theorem mem_related_iff (schema : Schema R) (id other : String) :
    other ∈ (ofSchema schema).related id ↔
      id ∈ schema.tableIds ∧ other ∈ schema.tableIds ∧ id ≠ other ∧ Connected schema id other := by
  rw [related, hasNode_ofSchema]
  by_cases known : id ∈ schema.tableIds
  next =>
    simp only [known, decide_true, if_true, List.mem_filter, mem_component_iff known, true_and]
    constructor
    next =>
      rintro ⟨connected, apart⟩
      exact ⟨connected.known known, Ne.symm (of_decide_eq_true apart), connected⟩
    next =>
      rintro ⟨-, apart, connected⟩
      exact ⟨connected, decide_eq_true (Ne.symm apart)⟩
  next => simp [known]

theorem mem_takeWhile_ne_or {ids : List String} (first : id ∈ ids) (second : other ∈ ids)
    (apart : id ≠ other) : id ∈ ids.takeWhile (· ≠ other) ∨ other ∈ ids.takeWhile (· ≠ id) := by
  induction ids with
  | nil => cases first
  | cons head ids ih =>
    by_cases here : head = id
    next => exact .inl (by simp [here, apart])
    next =>
      by_cases there : head = other
      next => exact .inr (by simp [there, Ne.symm apart])
      next =>
        have first := List.mem_of_ne_of_mem (Ne.symm here) first
        have second := List.mem_of_ne_of_mem (Ne.symm there) second
        simpa [here, there, Ne.symm here, Ne.symm there] using ih first second

theorem exists_first (holds : String → Prop) {ids : List String}
    (found : ∃ id ∈ ids, holds id) :
    ∃ first ∈ ids, holds first ∧ ∀ earlier ∈ ids.takeWhile (· ≠ first), ¬ holds earlier := by
  induction ids with
  | nil => simp at found
  | cons head ids ih =>
    by_cases here : holds head
    next => exact ⟨head, .head _, here, by simp⟩
    next =>
      obtain ⟨first, member, holding, earliest⟩ := ih (by simpa [here] using found)
      have apart : head ≠ first := fun same => here (same ▸ holding)
      refine ⟨first, .tail _ member, holding, ?_⟩
      simpa [apart, here] using earliest

/-- The nodes that no earlier node is connected to. -/
def leaders (graph : Graph) : List String :=
  let ids := graph.nodes.map (·.id)
  ids.filter fun id => (ids.takeWhile (· ≠ id)).all fun earlier => earlier ∉ graph.component id

theorem mem_leaders_iff (schema : Schema R) (id : String) :
    id ∈ (ofSchema schema).leaders ↔
      id ∈ schema.tableIds ∧ ∀ earlier ∈ ((ofSchema schema).nodes.map (·.id)).takeWhile (· ≠ id),
        ¬ Connected schema id earlier := by
  rw [leaders, List.mem_filter, mem_ids_iff]
  refine and_congr_right fun known => ?_
  simp [mem_component_iff known]

theorem eq_of_connected_leaders (first : id ∈ (ofSchema schema).leaders)
    (second : other ∈ (ofSchema schema).leaders) (connected : Connected schema id other) :
    id = other := by
  obtain ⟨known, early⟩ := (mem_leaders_iff schema id).mp first
  obtain ⟨declared, early'⟩ := (mem_leaders_iff schema other).mp second
  -- Of two nodes one comes first, and the other leads nowhere before itself.
  by_contra apart
  have node := (mem_ids_iff schema id).mpr known
  have node' := (mem_ids_iff schema other).mpr declared
  rcases mem_takeWhile_ne_or node node' apart with before | before
  · exact early' id before connected.symm
  · exact early other before connected

theorem exists_leader (known : id ∈ schema.tableIds) :
    ∃ leader ∈ (ofSchema schema).leaders, Connected schema leader id := by
  obtain ⟨leader, -, connected, earliest⟩ :=
    exists_first (Connected schema id) ⟨id, (mem_ids_iff schema id).mpr known, .refl⟩
  refine ⟨leader, (mem_leaders_iff schema leader).mpr ⟨connected.known known, ?_⟩, connected.symm⟩
  exact fun earlier before again => earliest earlier before (connected.trans again)

/-- The class of a node that no earlier node is connected to. -/
def classOf (schema : Schema R) (leader : { id // id ∈ (ofSchema schema).leaders }) :
    Quotient (connection schema) :=
  Quotient.mk _ ⟨leader.1, ((mem_leaders_iff schema _).mp leader.2).1⟩

theorem classOf_bijective (schema : Schema R) : Function.Bijective (classOf schema) := by
  constructor
  next =>
    rintro ⟨leader, first⟩ ⟨other, second⟩ same
    exact Subtype.ext (eq_of_connected_leaders first second (Quotient.exact same))
  next =>
    intro part
    induction part using Quotient.inductionOn with
    | h table =>
      obtain ⟨leader, listed, connected⟩ := exists_leader table.2
      exact ⟨⟨leader, listed⟩, Quotient.sound connected⟩

theorem card_connection (schema : Schema R) :
    Nat.card (Quotient (connection schema)) = (ofSchema schema).componentCount := by
  have distinct : (ofSchema schema).leaders.Nodup := (nodup_ids schema).filter _
  calc Nat.card (Quotient (connection schema))
    _ = Nat.card { id // id ∈ (ofSchema schema).leaders } :=
        (Nat.card_eq_of_bijective _ (classOf_bijective schema)).symm
    _ = (ofSchema schema).leaders.length := Nat.card_eq_of_equiv_fin (distinct.getEquiv _).symm
    _ = (ofSchema schema).componentCount := rfl

/-- The tables at neither end of a relationship that joins two tables. -/
theorem isolated_eq (schema : Schema R) :
    (ofSchema schema).isolated schema = schema.tableIds.filter fun id =>
      ∀ relationship ∈ joined schema, relationship.source ≠ id ∧ relationship.target ≠ id := by
  refine List.filter_congr fun id known => ?_
  have ends : (∀ link ∈ (ofSchema schema).links, link.source ≠ id ∧ link.target ≠ id) ↔
      ∀ relationship ∈ joined schema, relationship.source ≠ id ∧ relationship.target ≠ id := by
    have pairs := exists_link_iff schema
    constructor
    next =>
      intro free relationship member
      obtain ⟨link, kept, source, target⟩ := (pairs _ _).mpr ⟨relationship, member, rfl, rfl⟩
      exact source ▸ target ▸ free link kept
    next =>
      intro free link kept
      obtain ⟨relationship, member, source, target⟩ := (pairs _ _).mp ⟨link, kept, rfl, rfl⟩
      exact source ▸ target ▸ free relationship member
  rw [isIsolated, hasNode_ofSchema, Bool.eq_iff_iff]
  simpa [known] using ends

/-- What a graph says of its tables. A table is related to the other tables that are connected to it,
so this is symmetric and, the table itself apart, transitive; the parts of the graph are the classes of
connected tables. A table points at the others that a relationship of it leads to, and they are pointed
at by it. The isolated tables are those without a relationship, in the order of the schema. -/
theorem connections_of_schema (schema : Schema R) :
    (∀ id other, other ∈ (ofSchema schema).related id ↔
      id ∈ schema.tableIds ∧ other ∈ schema.tableIds ∧ id ≠ other ∧ Connected schema id other) ∧
    (∀ id other, other ∈ (ofSchema schema).related id → id ∈ (ofSchema schema).related other) ∧
    (∀ id between other, between ∈ (ofSchema schema).related id →
      other ∈ (ofSchema schema).related between → id ≠ other →
      other ∈ (ofSchema schema).related id) ∧
    ((ofSchema schema).stats schema).components = Nat.card (Quotient (connection schema)) ∧
    (∀ id other, (other ∈ (ofSchema schema).referenced id ↔
        id ∈ (ofSchema schema).referencing other) ∧
      (other ∈ (ofSchema schema).referenced id ↔ id ∈ schema.tableIds ∧ other ∈ schema.tableIds ∧
        ∃ relationship ∈ schema.relationships,
          relationship.source = id ∧ relationship.target = other)) ∧
    (ofSchema schema).isolated schema = schema.tableIds.filter fun id =>
      ∀ relationship ∈ schema.relationships, relationship.Joins schema.tableIds →
        relationship.source ≠ id ∧ relationship.target ≠ id := by
  have related := mem_related_iff schema
  refine ⟨related, ?_, ?_, (card_connection schema).symm, fun id other => ⟨?_, ?_⟩, ?_⟩
  next =>
    intro id other found
    obtain ⟨known, declared, apart, connected⟩ := (related id other).mp found
    exact (related other id).mpr ⟨declared, known, Ne.symm apart, connected.symm⟩
  next =>
    intro id between other first second apart
    obtain ⟨known, -, -, connected⟩ := (related id between).mp first
    obtain ⟨-, declared, -, onward⟩ := (related between other).mp second
    exact (related id other).mpr ⟨known, declared, apart, connected.trans onward⟩
  next => rw [mem_referenced_iff, mem_referencing_iff]
  next => rw [mem_referenced_iff, pointsAt_iff]
  next =>
    rw [isolated_eq]
    simp [joined]

end SchemaAtlas.Graph
