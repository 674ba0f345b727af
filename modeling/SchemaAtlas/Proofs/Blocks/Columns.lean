import SchemaAtlas.Proofs.Blocks.Locality

/-!
The tables of a schema written in blocks, model by model, and their columns, field by field.
-/

set_option autoImplicit false

namespace SchemaAtlas

theorem Column.ofFields?_gives {name type : String} {isPrimaryKey isUnique isNotNull : Bool}
    {references : Option ColumnReference} {defaultValue : Option String} {column : Column}
    (built : ofFields? name type isPrimaryKey isUnique isNotNull references defaultValue =
      .ok column) :
    column.name = name ∧ column.type = type ∧ column.isPrimaryKey = isPrimaryKey ∧
      column.defaultValue = defaultValue := by
  unfold ofFields? at built
  split at built
  next => cases built
  next =>
    split at built
    next => cases built
    next => cases built; exact ⟨rfl, rfl, rfl, rfl⟩

namespace Blocks

open Text

/-- What a scalar field says of its column, the reference apart. -/
structure Field.Makes (keywords : PrismaKeywords) (types : TypeProvider)
    (enums compositeKey : List String) (field : Field) (column : Column) : Prop where
  name : column.name = field.name
  type : (field.columnType keywords types enums).map
    (fun type => if field.isArray then type ++ "[]" else type) = .ok column.type
  isPrimaryKey : column.isPrimaryKey =
    (field.hasAttribute keywords.idAttribute || field.name ∈ compositeKey)
  defaultValue : column.defaultValue = field.defaultValue? keywords

theorem Field.makes_of_column {keywords : PrismaKeywords} {types : TypeProvider}
    {enums compositeKey : List String} {reference : Option ColumnReference} {field : Field}
    {found : Column} (read : field.column keywords types enums compositeKey reference = .ok found) :
    field.Makes keywords types enums compositeKey found := by
  obtain ⟨type, typed, built⟩ := bind_eq_ok.mp read
  obtain ⟨named, columnType, key, default⟩ := Column.ofFields?_gives (mapError_eq_ok.mp built)
  exact ⟨named, by rw [typed, columnType]; rfl, key, default⟩

namespace Model

/-- The fields that become columns. -/
def scalars (models : List String) (model : Model) : List Field :=
  model.fields.filter (·.type ∉ models)

theorem makes_of_columns {keywords : PrismaKeywords} {types : TypeProvider}
    {models enums : List String} {relationships : List Relationship} {model : Model}
    {found : List Column}
    (read : model.columns keywords types models enums relationships = .ok found) :
    List.Forall₂ (Field.Makes keywords types enums (model.marks keywords).compositeKey)
      (model.scalars models) found :=
  (forall₂_of_mapM read).imp fun _ _ here => Field.makes_of_column here

variable {R : Type}

/-- The table of a model among other models and enumerations. -/
structure Makes (config : Config R) (models enums : List String) (model : Model) (table : Table R) :
    Prop where
  id : table.id = model.name
  indexes : table.indexes = (model.marks config.prismaKeywords).indexes
  columns : List.Forall₂ (Field.Makes config.prismaKeywords config.prismaTypes enums
    (model.marks config.prismaKeywords).compositeKey) (model.scalars models) table.columns

theorem makes_of_ownTable {config : Config R} {models : List Model} {enums : List String}
    {model : Model} {table : Table R}
    (read : model.ownTable config models enums = .ok table.unplaced) :
    model.Makes config (models.map (·.name)) enums table := by
  obtain ⟨columns, built, same⟩ := map_eq_ok.mp read
  have named : model.name = table.id := congrArg Table.id same
  have listed : columns = table.columns := congrArg Table.columns same
  have indexes : (model.marks config.prismaKeywords).indexes = table.indexes :=
    congrArg Table.indexes same
  exact ⟨named.symm, indexes.symm, listed ▸ makes_of_columns built⟩

end Model

/-- The last block of a name is the one that counts. -/
theorem mem_of_collect {keywords : PrismaKeywords} {cs : List Char} {models : List Model}
    {enums : List Enumeration} (collected : (collect keywords cs).outcome = .ok (models, enums))
    {earlier later : List Block} {block : Block}
    (split : (blocks keywords.modelKeyword cs).blocks = earlier ++ block :: later)
    (last : block.name ∉ later.map (·.name)) :
    ∃ model ∈ models, Model.ofBlock? block = .ok model := by
  obtain ⟨-, declared, read, rfl⟩ := collect_eq_ok.mp collected
  -- The declared models fall into three parts as the blocks do.
  have mapped := (readBlocks_eq_ok.mp read).1
  rw [split, List.mapM_append, List.mapM_cons] at mapped
  obtain ⟨before, -, rest⟩ := bind_eq_ok.mp mapped
  obtain ⟨all, found, same⟩ := bind_eq_ok.mp rest
  cases same
  obtain ⟨model, here, rest⟩ := bind_eq_ok.mp found
  obtain ⟨behind, read', same⟩ := bind_eq_ok.mp rest
  cases same
  have names : behind.map (·.name) = later.map (·.name) :=
    map_of_mapM read' fun _ _ found => Model.ofLines?_name found
  have new : model.name ∉ behind.map (·.name) := by
    rwa [names, Model.ofLines?_name here]
  exact ⟨model, Keyed.mem_merge_of_last new, here⟩

variable {R : Type} [Coordinate R] {config : Config R} {draws : Nat → R}

/-- A schema that is read has the relationships and the tables of the models that are collected. -/
theorem makes_of_readSchema {text : List Char} {schema : Schema R}
    (read : (readSchema config draws text).outcome = .ok schema) :
    ∃ models enums, (collect config.prismaKeywords (stripComments text)).outcome =
        .ok (models, enums) ∧
      schema.enums = enums ∧
      schema.relationships = models.flatMap (Model.ownLinks config models) ∧
      List.Forall₂ (Model.Makes config (models.map (·.name)) (enums.map (·.name))) models
        schema.tables := by
  obtain ⟨-, -, models, enums, collected, built⟩ := readSchema_eq_ok.mp read
  obtain ⟨-, assembled⟩ := assemble_of_schemaOf collected built
  obtain ⟨tables, mapped, same⟩ := assemble_eq_ok assembled
  have listed : schema.tables.map Table.unplaced = tables := congrArg Schema.tables same
  have links : schema.relationships = models.flatMap (Model.ownLinks config models) :=
    congrArg Schema.relationships same
  have listing : schema.enums = enums := congrArg Schema.enums same
  refine ⟨models, enums, collected, listing, links, ?_⟩
  rw [← listed] at mapped
  exact (List.forall₂_map_right_iff.mp (forall₂_of_mapM mapped)).imp
    fun _ _ here => Model.makes_of_ownTable here

end Blocks

end SchemaAtlas
