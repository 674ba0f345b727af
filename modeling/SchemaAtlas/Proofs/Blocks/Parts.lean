import Mathlib.Data.List.Nodup
import SchemaAtlas.Proofs.Blocks.Schema
import SchemaAtlas.Proofs.Rearranged

/-!
A schema written in blocks, put together model by model: its relationships are those that each model
keeps on its own, and its tables reference nothing else.
-/

set_option autoImplicit false

namespace SchemaAtlas

/-- The table without its position. -/
def Table.unplaced {R : Type} (table : Table R) : Table Unit where
  id := table.id
  name := table.name
  columns := table.columns
  indexes := table.indexes
  position := ⟨(), ()⟩

/-- Two schemas hold the same in another order. -/
structure Schema.Rearranged {R : Type} (schema other : Schema R) : Prop where
  tables : schema.tables.Perm other.tables
  relationships : schema.relationships.Perm other.relationships
  enums : schema.enums.Perm other.enums

/-- The schema without the positions of its tables. -/
def Schema.unplaced {R : Type} (schema : Schema R) : Schema Unit where
  tables := schema.tables.map Table.unplaced
  relationships := schema.relationships
  enums := schema.enums

namespace Relationship

theorem resolve_of_joins {tables : List String} {mode : ErrorMode}
    {relationships : List Relationship} (joins : ∀ r ∈ relationships, r.Joins tables) :
    resolve tables mode relationships = pure relationships := by
  induction relationships with
  | nil => rfl
  | cons relationship relationships ih =>
    have known := missingEnd?_eq_none.mpr (joins relationship (.head _))
    have later := ih fun r member => joins r (.tail _ member)
    cases mode <;> simp [resolve, known, later]

theorem firstLinks_congr {seen other : List LinkKey} {relationships : List Relationship}
    (same : ∀ r ∈ relationships, r.linkKey ∈ seen ↔ r.linkKey ∈ other) :
    firstLinks seen relationships = firstLinks other relationships := by
  induction relationships generalizing seen other with
  | nil => rfl
  | cons relationship relationships ih =>
    have here := same relationship (.head _)
    have behind (r : Relationship) (member : r ∈ relationships) := same r (.tail _ member)
    have deeper (r : Relationship) (member : r ∈ relationships) :
        r.linkKey ∈ relationship.linkKey :: seen ↔ r.linkKey ∈ relationship.linkKey :: other := by
      simp [behind r member]
    by_cases known : relationship.linkKey ∈ seen
    · rw [firstLinks, firstLinks, if_pos known, if_pos (here.mp known), ih behind]
    · rw [firstLinks, firstLinks, if_neg known, if_neg (mt here.mpr known), ih deeper]

theorem firstLinks_append {seen : List LinkKey} {first second : List Relationship}
    (apart : ∀ a ∈ first, ∀ b ∈ second, a.linkKey ≠ b.linkKey) :
    firstLinks seen (first ++ second) = firstLinks seen first ++ firstLinks seen second := by
  induction first generalizing seen with
  | nil => rfl
  | cons a first ih =>
    have behind (b : Relationship) (member : b ∈ first) := apart b (.tail _ member)
    rw [List.cons_append, firstLinks, firstLinks]
    split
    next => exact ih behind
    next =>
      have unseen : firstLinks (a.linkKey :: seen) second = firstLinks seen second :=
        firstLinks_congr fun b member => by
          simp [Ne.symm (apart a (.head _) b member)]
      rw [ih behind, unseen, List.cons_append]

/-- What is kept of relationships between known tables. -/
def kept (once : Bool) (relationships : List Relationship) : List Relationship :=
  if once then deduplicate relationships else relationships

theorem settle_of_joins {tables : List String} (mode : ErrorMode) (once : Bool)
    {relationships : List Relationship} (joins : ∀ r ∈ relationships, r.Joins tables) :
    settle tables mode once relationships = pure (kept once relationships) := by
  rw [settle, resolve_of_joins joins, pure_bind, kept]

/-- Links from different tables are kept apart. -/
theorem kept_flatMap {α : Type} {name : α → String} {items : List α} (once : Bool)
    {found : α → List Relationship} (distinct : (items.map name).Nodup)
    (owned : ∀ item ∈ items, ∀ r ∈ found item, r.source = name item) :
    kept once (items.flatMap found) = items.flatMap fun item => kept once (found item) := by
  cases once with
  | false => rfl
  | true =>
    show deduplicate (items.flatMap found) = items.flatMap fun item => deduplicate (found item)
    induction items with
    | nil => rfl
    | cons item items ih =>
      rw [List.map_cons, List.nodup_cons] at distinct
      have later := ih distinct.2 fun other member => owned other (.tail _ member)
      rw [List.flatMap_cons, List.flatMap_cons, ← later]
      refine firstLinks_append fun a mine b others same => ?_
      obtain ⟨other, member, inside⟩ := List.mem_flatMap.mp others
      have source : a.source = b.source := congrArg LinkKey.source same
      rw [owned item (.head _) a mine, owned other (.tail _ member) b inside] at source
      exact distinct.1 (source ▸ List.mem_map_of_mem member)

theorem mem_of_mem_kept {once : Bool} {relationships : List Relationship}
    {relationship : Relationship} (member : relationship ∈ kept once relationships) :
    relationship ∈ relationships := by
  unfold kept at member
  split at member
  next => exact mem_of_mem_deduplicate member
  next => exact member

end Relationship

namespace Blocks

namespace Model

/-- A reference of a column depends on the relationships of its own model only. -/
theorem reference?_flatMap {α : Type} {name : α → String} {items : List α}
    {found : α → List Relationship} (distinct : (items.map name).Nodup)
    (owned : ∀ item ∈ items, ∀ r ∈ found item, r.source = name item) {item : α}
    (member : item ∈ items) (field : String) :
    reference? (items.flatMap found) (name item) field =
      reference? (found item) (name item) field := by
  have others {rest : List α} (unnamed : name item ∉ rest.map name)
      (owned : ∀ other ∈ rest, ∀ r ∈ found other, r.source = name other) :
      (rest.flatMap found).filter (fun r => r.source = name item ∧ r.sourceColumn = field) = [] := by
    refine List.filter_eq_nil_iff.mpr fun r inside => ?_
    obtain ⟨other, present, here⟩ := List.mem_flatMap.mp inside
    have different : name other ≠ name item := fun same =>
      unnamed (same ▸ List.mem_map_of_mem present)
    simp [owned other present r here, different]
  obtain ⟨before, behind, rfl⟩ := List.append_of_mem member
  rw [List.map_append, List.map_cons, List.nodup_append, List.nodup_cons] at distinct
  obtain ⟨-, ⟨unnamed, -⟩, apart⟩ := distinct
  have front : name item ∉ before.map name := fun present =>
    apart _ present _ (.head _) rfl
  rw [reference?, reference?, List.flatMap_append, List.flatMap_cons, List.filter_append,
    List.filter_append, others front fun other present => owned other (by simp [present]),
    others unnamed fun other present => owned other (by simp [present]), List.nil_append,
    List.append_nil]

/-- Relationships are always found; each begins at the model and ends at a known one. -/
theorem relationships_returns (keywords : PrismaKeywords) (models : List Model) (model : Model) :
    (model.relationships keywords models).Returns fun found =>
      ∀ r ∈ found, r.source = model.name ∧ r.target ∈ models.map (·.name) := by
  have each (field : Field) : (model.relationsOfField keywords models field).Returns fun found =>
      ∀ r ∈ found, r.source = model.name ∧ r.target ∈ models.map (·.name) := by
    unfold relationsOfField
    split
    next target known =>
      have named : target.name ∈ models.map (·.name) :=
        List.mem_map_of_mem (List.mem_of_find?_eq_some known)
      unfold relationsOf
      simp only
      split
      next =>
        split
        next => exact (Journaled.Returns.record _).bind fun _ _ => .pure (by simp)
        next =>
          refine .pure fun r member => ?_
          obtain ⟨pair, -, rfl⟩ := List.mem_map.mp member
          exact ⟨rfl, named⟩
      next =>
        split
        next => exact .pure (by simp)
        next =>
          split
          next source column _ _ =>
            refine .pure fun r member => ?_
            rw [List.mem_singleton.mp member]
            exact ⟨rfl, named⟩
          next => exact .pure (by simp)
    next => exact .pure (by simp)
  have all := Journaled.Returns.mapM model.fields fun field _ => each field
  exact all.bind fun found holds => .pure (by simpa only [List.forall_mem_flatten] using holds)

/-- The relationships of some models join models of theirs. -/
theorem joins_of_mapM_relationships (keywords : PrismaKeywords) (models : List Model) :
    (models.mapM (relationships keywords models)).Returns fun found =>
      ∀ r ∈ found.flatten, r.Joins (models.map (·.name)) := by
  refine (Journaled.Returns.mapM models fun model present => ?_).imp fun found joins =>
    List.forall_mem_flatten.mpr joins
  refine (relationships_returns keywords models model).imp fun links ends r member => ?_
  obtain ⟨source, target⟩ := ends r member
  exact ⟨source ▸ List.mem_map_of_mem present, target⟩

/-- The relationships of a model as a list. -/
def links (keywords : PrismaKeywords) (models : List Model) (model : Model) : List Relationship :=
  match (model.relationships keywords models).outcome with
  | .ok found => found
  | .error _ => []

theorem relationships_outcome (keywords : PrismaKeywords) (models : List Model) (model : Model) :
    (model.relationships keywords models).outcome = .ok (model.links keywords models) := by
  obtain ⟨found, same, -⟩ := relationships_returns keywords models model
  rw [links, same]

theorem ends_of_mem_links {keywords : PrismaKeywords} {models : List Model} {model : Model}
    {r : Relationship} (member : r ∈ model.links keywords models) :
    r.source = model.name ∧ r.target ∈ models.map (·.name) := by
  obtain ⟨found, same, ends⟩ := relationships_returns keywords models model
  rw [relationships_outcome] at same
  cases same
  exact ends r member

variable {R : Type}

/-- The relationships of a model that the settings keep. -/
def ownLinks (config : Config R) (models : List Model) (model : Model) : List Relationship :=
  Relationship.kept config.deduplicateRelationships (model.links config.prismaKeywords models)

theorem ends_of_mem_ownLinks {config : Config R} {models : List Model} {model : Model}
    {r : Relationship} (member : r ∈ model.ownLinks config models) :
    r.source = model.name ∧ r.target ∈ models.map (·.name) :=
  ends_of_mem_links (Relationship.mem_of_mem_kept member)

/-- The table of a model, wherever it is put. -/
def contents (config : Config R) (models enums : List String) (relationships : List Relationship)
    (model : Model) : Except Fault (Table Unit) :=
  (model.columns config.prismaKeywords config.prismaTypes models enums relationships).map
    fun columns =>
      let marks := model.marks config.prismaKeywords
      { id := model.name, name := marks.name, columns, indexes := marks.indexes
        position := ⟨(), ()⟩ }

/-- The table of a model, whose columns reference what its own relationships say. -/
def ownTable (config : Config R) (models : List Model) (enums : List String) (model : Model) :
    Except Fault (Table Unit) :=
  model.contents config (models.map (·.name)) enums (model.ownLinks config models)

theorem contents_references {config : Config R} {models enums : List String}
    {first second : List Relationship} {model : Model}
    (same : ∀ field, reference? first model.name field = reference? second model.name field) :
    model.contents config models enums first = model.contents config models enums second := by
  simp only [contents, columns, same]

end Model

variable {R : Type}

/-- The schema of some models and enumerations, put together from what each model has of its own. -/
def assemble (config : Config R) (models : List Model) (enums : List Enumeration) :
    Except Fault (Schema Unit) :=
  (models.mapM (Model.ownTable config models (enums.map (·.name)))).map
    fun tables => { tables, relationships := models.flatMap (Model.ownLinks config models), enums }

/-- The types of a model mean the same among two collections of models and enumerations. -/
structure Model.Agrees (model : Model) (models others : List Model) (enums listed : List String) :
    Prop where
  models : ∀ field ∈ model.fields,
    models.find? (·.name = field.type) = others.find? (·.name = field.type)
  enums : ∀ field ∈ model.fields, field.type ∈ enums ↔ field.type ∈ listed

namespace Model.Agrees

variable {config : Config R} {model : Model} {models others : List Model} {enums listed : List String}

theorem ownLinks (agrees : model.Agrees models others enums listed) :
    model.ownLinks config models = model.ownLinks config others := by
  have each : model.fields.mapM (relationsOfField config.prismaKeywords models model) =
      model.fields.mapM (relationsOfField config.prismaKeywords others model) :=
    mapM_congr fun field member => by
      rw [relationsOfField, relationsOfField, agrees.models field member]
  rw [Model.ownLinks, Model.ownLinks, links, links, relationships, relationships, each]

theorem ownTable (agrees : model.Agrees models others enums listed) :
    model.ownTable config models enums = model.ownTable config others listed := by
  have known (field : Field) (member : field ∈ model.fields) :
      field.type ∈ models.map (·.name) ↔ field.type ∈ others.map (·.name) := by
    have held (models : List Model) : field.type ∈ models.map (·.name) ↔
        (models.find? (·.name = field.type)).isSome = true := by
      simp [List.find?_isSome]
    rw [held, held, agrees.models field member]
  have scalars : model.fields.filter (·.type ∉ models.map (·.name)) =
      model.fields.filter (·.type ∉ others.map (·.name)) :=
    List.filter_congr fun field member => by simp only [known field member]
  have typed (field : Field) (member : field ∈ model.fields) :
      field.columnType config.prismaKeywords config.prismaTypes enums =
        field.columnType config.prismaKeywords config.prismaTypes listed := by
    simp only [Field.columnType, agrees.enums field member]
  have columns (relationships : List Relationship) :
      model.columns config.prismaKeywords config.prismaTypes (models.map (·.name)) enums
          relationships =
        model.columns config.prismaKeywords config.prismaTypes (others.map (·.name)) listed
          relationships := by
    rw [Model.columns, Model.columns, scalars]
    refine mapM_congr fun field member => ?_
    rw [Field.column, Field.column, typed field (List.mem_filter.mp member).1]
  rw [Model.ownTable, Model.ownTable, contents, contents, columns, agrees.ownLinks]

/-- The names of other models and enumerations behind it mean nothing to a model. -/
theorem front {first second : List Model} {own foreign : List Enumeration}
    (apart : ∀ field ∈ model.fields,
      field.type ∉ second.map (·.name) ++ foreign.map (·.name)) :
    model.Agrees (first ++ second) first ((own ++ foreign).map (·.name)) (own.map (·.name)) where
  models field member := by
    have absent := apart field member
    rw [List.mem_append, not_or] at absent
    have none : second.find? (·.name = field.type) = none :=
      List.find?_eq_none.mpr fun other inside same =>
        absent.1 (of_decide_eq_true same ▸ List.mem_map_of_mem inside)
    rw [List.find?_append, none, Option.or_none]
  enums field member := by
    have absent := apart field member
    rw [List.mem_append, not_or] at absent
    rw [List.map_append, List.mem_append, or_iff_left absent.2]

/-- The names of other models and enumerations in front of it mean nothing to a model. -/
theorem back {first second : List Model} {own foreign : List Enumeration}
    (apart : ∀ field ∈ model.fields,
      field.type ∉ first.map (·.name) ++ foreign.map (·.name)) :
    model.Agrees (first ++ second) second ((foreign ++ own).map (·.name)) (own.map (·.name)) where
  models field member := by
    have absent := apart field member
    rw [List.mem_append, not_or] at absent
    have none : first.find? (·.name = field.type) = none :=
      List.find?_eq_none.mpr fun other inside same =>
        absent.1 (of_decide_eq_true same ▸ List.mem_map_of_mem inside)
    rw [List.find?_append, none, Option.none_or]
  enums field member := by
    have absent := apart field member
    rw [List.mem_append, not_or] at absent
    rw [List.map_append, List.mem_append, or_iff_right absent.2]

end Model.Agrees

variable {config : Config R}

theorem assemble_eq_ok {models : List Model} {enums : List Enumeration} {schema : Schema Unit}
    (read : assemble config models enums = .ok schema) :
    ∃ tables, models.mapM (Model.ownTable config models (enums.map (·.name))) = .ok tables ∧
      schema = { tables, relationships := models.flatMap (Model.ownLinks config models), enums } := by
  obtain ⟨tables, mapped, same⟩ := map_eq_ok.mp read
  exact ⟨tables, mapped, same.symm⟩

/-- Schemas whose models and enumerations mean nothing to each other are read side by side. -/
theorem assemble_append {first second : List Model} {enums listed : List Enumeration}
    (forwards : ∀ model ∈ first, model.Agrees (first ++ second) first
      ((enums ++ listed).map (·.name)) (enums.map (·.name)))
    (backwards : ∀ model ∈ second, model.Agrees (first ++ second) second
      ((enums ++ listed).map (·.name)) (listed.map (·.name)))
    {schema other : Schema Unit} (left : assemble config first enums = .ok schema)
    (right : assemble config second listed = .ok other) :
    assemble config (first ++ second) (enums ++ listed) = .ok
      { tables := schema.tables ++ other.tables
        relationships := schema.relationships ++ other.relationships
        enums := schema.enums ++ other.enums } := by
  obtain ⟨tables, mapped, rfl⟩ := assemble_eq_ok left
  obtain ⟨others, mapped', rfl⟩ := assemble_eq_ok right
  have front : first.mapM (Model.ownTable config (first ++ second) ((enums ++ listed).map (·.name))) =
      .ok tables :=
    (mapM_congr fun model member => (forwards model member).ownTable).trans mapped
  have back : second.mapM (Model.ownTable config (first ++ second) ((enums ++ listed).map (·.name))) =
      .ok others :=
    (mapM_congr fun model member => (backwards model member).ownTable).trans mapped'
  have links : (first ++ second).flatMap (Model.ownLinks config (first ++ second)) =
      first.flatMap (Model.ownLinks config first) ++
        second.flatMap (Model.ownLinks config second) := by
    rw [List.flatMap_append, List.flatMap_congr fun model member => (forwards model member).ownLinks,
      List.flatMap_congr fun model member => (backwards model member).ownLinks]
  rw [assemble, List.mapM_append, front, back, links]
  rfl

/-- The order of models and enumerations decides on the order of what is read only. -/
theorem assemble_perm {models others : List Model} {enums listed : List Enumeration}
    (perm : models.Perm others) (distinct : Distinct models) (same : enums.Perm listed)
    {schema : Schema Unit} (read : assemble config models enums = .ok schema) :
    ∃ other, assemble config others listed = .ok other ∧ schema.Rearranged other := by
  obtain ⟨tables, mapped, rfl⟩ := assemble_eq_ok read
  have agrees (model : Model) :
      model.Agrees others models (listed.map (·.name)) (enums.map (·.name)) :=
    ⟨fun field _ => (find?_perm perm distinct field.type).symm,
      fun field _ => (same.map (·.name)).mem_iff.symm⟩
  obtain ⟨again, mapped', moved⟩ := mapM_perm perm mapped
  have tables : others.mapM (Model.ownTable config others (listed.map (·.name))) = .ok again :=
    (mapM_congr fun model _ => (agrees model).ownTable).trans mapped'
  have links : others.flatMap (Model.ownLinks config others) =
      others.flatMap (Model.ownLinks config models) :=
    List.flatMap_congr fun model _ => (agrees model).ownLinks
  refine ⟨_, by rw [assemble, tables]; rfl, moved, ?_, same⟩
  rw [links]
  exact perm.flatMap fun _ _ => .refl _

variable [Coordinate R]

theorem readTable_unplaced (config : Config R) (draws : Nat → R) (models enums : List String)
    (relationships : List Relationship) (place : Nat) (model : Model) :
    (readTable config draws models enums relationships place model).outcome.map Table.unplaced =
      model.contents config models enums relationships := by
  rw [readTable, Journaled.bind_outcome, Journaled.ofExcept_outcome, Model.contents]
  cases model.columns config.prismaKeywords config.prismaTypes models enums relationships <;> rfl

theorem readTables_unplaced (config : Config R) (draws : Nat → R) (models enums : List String)
    (relationships : List Relationship) (place : Nat) (rest : List Model) :
    (readTables config draws models enums relationships place rest).outcome.map
        (List.map Table.unplaced) =
      rest.mapM (Model.contents config models enums relationships) := by
  induction rest generalizing place with
  | nil => rfl
  | cons model rest ih =>
    rw [readTables, Journaled.bind_outcome, List.mapM_cons, ← readTable_unplaced config draws _ _ _
      place, ← ih (place + 1)]
    cases (readTable config draws models enums relationships place model).outcome with
    | error fault => rfl
    | ok table =>
      simp only [Except.bind, Journaled.bind_outcome]
      cases (readTables config draws models enums relationships (place + 1) rest).outcome <;> rfl

/-- Reading a schema looks at each model for itself. -/
theorem schemaOf_unplaced (config : Config R) (draws : Nat → R) {models : List Model}
    (distinct : Distinct models) {enums : List Enumeration}
    (some : ¬ (models.isEmpty && enums.isEmpty) = true) :
    (schemaOf config draws models enums).outcome.map Schema.unplaced =
      assemble config models enums := by
  have found : (models.mapM (Model.relationships config.prismaKeywords models)).outcome =
      .ok (models.map (Model.links config.prismaKeywords models)) :=
    Journaled.mapM_outcome models fun model _ => Model.relationships_outcome _ _ _
  have joins : ∀ r ∈ models.flatMap (Model.links config.prismaKeywords models),
      r.Joins (models.map (·.name)) := by
    obtain ⟨_, again, joins⟩ := Model.joins_of_mapM_relationships config.prismaKeywords models
    cases found.symm.trans again
    rwa [List.flatMap_def]
  have owned (model : Model) (_ : model ∈ models) (r : Relationship)
      (inside : r ∈ model.ownLinks config models) : r.source = model.name :=
    (Model.ends_of_mem_ownLinks inside).1
  have settled : Relationship.settle (models.map (·.name)) config.onUnresolved
      config.deduplicateRelationships
      (models.map (Model.links config.prismaKeywords models)).flatten =
        pure (models.flatMap (Model.ownLinks config models)) := by
    rw [← List.flatMap_def, Relationship.settle_of_joins _ _ joins,
      Relationship.kept_flatMap _ distinct fun model _ r inside =>
        (Model.ends_of_mem_links inside).1]
    rfl
  have tables := readTables_unplaced config draws (models.map (·.name)) (enums.map (·.name))
    (models.flatMap (Model.ownLinks config models)) 0 models
  have own : models.mapM (Model.contents config (models.map (·.name)) (enums.map (·.name))
      (models.flatMap (Model.ownLinks config models))) =
        models.mapM (Model.ownTable config models (enums.map (·.name))) :=
    mapM_congr fun model member =>
      Model.contents_references (Model.reference?_flatMap distinct owned member)
  rw [schemaOf, if_neg some, Journaled.bind_outcome, found]
  simp only [Except.bind, settled, pure_bind]
  rw [Journaled.bind_outcome, assemble, ← own, ← tables]
  cases (readTables config draws (models.map (·.name)) (enums.map (·.name))
    (models.flatMap (Model.ownLinks config models)) 0 models).outcome <;> rfl

end Blocks

end SchemaAtlas
