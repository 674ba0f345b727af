import SchemaAtlas.Proofs.Blocks.Collected
import SchemaAtlas.Proofs.Links

/-!
The tables that are made of a written schema, whatever is asked of their columns: one for each
model, in its place, with a column for each field that names no model.
-/

set_option autoImplicit false

namespace SchemaAtlas

namespace Blocks

open Text

/-- The column of a field whose type is known. -/
theorem Field.column_of_type {keywords : PrismaKeywords} {types : TypeProvider}
    {enums compositeKey : List String} {field : Field} {type : String}
    (typed : field.columnType keywords types enums = .ok type) (named : field.name ≠ "")
    (some : (if field.isArray then type ++ "[]" else type) ≠ "")
    (reference : Option ColumnReference) :
    field.column keywords types enums compositeKey reference = .ok
      { name := field.name
        type := if field.isArray then type ++ "[]" else type
        isPrimaryKey := field.hasAttribute keywords.idAttribute || field.name ∈ compositeKey
        isUnique := field.hasAttribute keywords.uniqueAttribute
        isNotNull := !field.isOptional
        references := reference
        defaultValue := field.defaultValue? keywords
        name_ne_empty := named
        type_ne_empty := some } := by
  rw [column, typed]
  simp only [bind, Except.bind]
  rw [Column.ofFields?_ok named some]
  rfl

namespace Written

theorem Field.hasAttribute_read (field : Field) (line : Nat) (name : String) :
    (field.read line).hasAttribute name = true ↔ ∃ attr ∈ field.attributes, attr.name = name := by
  simp [Blocks.Field.hasAttribute, Blocks.Field.attribute?, read, Attribute.read_name]

variable {R : Type} [Coordinate R]

/-- A table stands for a model at a place of a schema: it has a column for each of some fields. -/
structure Model.IsTable (reads : Field → Column → Prop) (layout : Layout R) (draws : Nat → R)
    (fields : List Field) (place : Nat) (model : Model) (table : Table R) : Prop where
  id : table.id = model.name
  name : table.name = model.name
  columns : List.Forall₂ reads fields table.columns
  indexes : table.indexes = []
  position : table.position = layout.position (draws place) place

/-- Every field of some models that names no model is read as a column, for relationships of a
certain kind between the models. -/
def ReadsColumns (models : List Model) (relates : Relationship → Prop)
    (reads : Field → Column → Prop) : Prop :=
  ∀ relationships, (∀ r ∈ relationships, relates r) → ∀ enums, ∀ model ∈ models,
    ∀ field ∈ model.scalars models, ∀ line, ∃ column,
      (field.read line).column {} TypeMap.prisma.provider enums []
          (Blocks.Model.reference? relationships model.name field.name) = .ok column ∧
        reads field column

variable {written : List Model} {relates : Relationship → Prop}
  {reads : Field → Column → Prop} {relationships : List Relationship}

/-- The columns of a model read back. -/
theorem columns_written (each : ReadsColumns written relates reads)
    (allowed : ∀ r ∈ relationships, relates r) {model : Model} (member : model ∈ written)
    {read : Blocks.Model} (pair : model.Reads read) (enums : List String) :
    ∃ columns, read.columns {} TypeMap.prisma.provider (written.map (·.name)) enums relationships =
        .ok columns ∧
      List.Forall₂ reads (model.scalars written) columns := by
  have key : (read.marks {}).compositeKey = [] := by simp [Blocks.Model.marks, pair.attributes]
  have scalars : List.Forall₂ (fun field read => ∃ line, read = Field.read line field)
      (model.scalars written) (read.fields.filter (·.type ∉ written.map (·.name))) := by
    refine List.rel_filter ?_ pair.fields
    rintro field _ ⟨line, rfl⟩
    rfl
  refine exists_mapM scalars fun field inside _ ⟨line, same⟩ => ?_
  rw [same, key, pair.name]
  exact each relationships allowed enums model member field inside line

theorem readTable_written (each : ReadsColumns written relates reads)
    (allowed : ∀ r ∈ relationships, relates r) {model : Model} (member : model ∈ written)
    {read : Blocks.Model} (pair : model.Reads read) (draws : Nat → R) (enums : List String)
    (place : Nat) :
    (readTable Config.default draws (written.map (·.name)) enums relationships place read).Returns
      (model.IsTable reads Layout.default draws (model.scalars written) place) := by
  obtain ⟨columns, found, described⟩ := columns_written each allowed member pair enums
  have marks : read.marks (Config.default : Config R).prismaKeywords = { name := model.name } := by
    simp [Blocks.Model.marks, pair.attributes, pair.name]
  refine .bind (.ofExcept found) fun _ same => ?_
  rw [same]
  refine (Journaled.Returns.record _).bind fun _ _ => .pure ⟨pair.name, ?_, described, ?_, rfl⟩
  · exact congrArg TableMarks.name marks
  · exact congrArg TableMarks.indexes marks

theorem readTables_written (each : ReadsColumns written relates reads)
    (allowed : ∀ r ∈ relationships, relates r) {models : List Model} (members : ∀ model ∈ models, model ∈ written)
    {read : List Blocks.Model} (pairs : List.Forall₂ Model.Reads models read) (draws : Nat → R)
    (enums : List String) (place : Nat) :
    (readTables Config.default draws (written.map (·.name)) enums relationships place read).Returns
      (List.Forall₂ (fun (model, place) => model.IsTable reads Layout.default draws
        (model.scalars written) place) (models.zipIdx place)) := by
  induction pairs generalizing place with
  | nil => exact .pure .nil
  | @cons model read models rest pair _ ih =>
    refine (readTable_written each allowed (members model (by simp)) pair draws enums place).bind
      fun table described => ?_
    refine (ih (fun other member => members other (by simp [member])) (place + 1)).bind
      fun tables later => .pure (.cons described later)

/-- A written schema is read, with its enumerations and a table for each of its models. -/
theorem readSchema_written {blocks : List Block} (formed : WellFormed blocks) (indent : Nat)
    (draws : Nat → R)
    (related : ∀ read, List.Forall₂ Model.Reads (models blocks) read → ∀ model ∈ read,
      (model.relationships {} read).Returns fun found => ∀ r ∈ found, relates r)
    (each : ReadsColumns (models blocks) relates reads) :
    (readSchema Config.default draws (text indent blocks)).Returns fun schema =>
      schema.enums = enumerations blocks ∧
        List.Forall₂ (fun (model, place) => model.IsTable reads Layout.default draws
          (model.scalars (models blocks)) place) (models blocks).zipIdx schema.tables := by
  have cleaned := stripComments_eq_self (uncommented_text formed.each indent)
  have looks : looksLike (Config.default : Config R).prismaKeywords (text indent blocks) = true :=
    looksLike_text formed indent
  unfold readSchema
  simp only [cleaned, looks, bracesBalanced_text formed.each, Bool.not_true]
  refine (collect_text formed indent).bind fun (read, enums) ⟨pairs, same⟩ => ?_
  have names := names_of_reads pairs
  have held : ¬ (read.isEmpty && enums.isEmpty) = true := by
    intro empty
    simp only [Bool.and_eq_true, List.isEmpty_iff] at empty
    obtain ⟨rfl, rfl⟩ := empty
    rw [List.map_nil, eq_comm, List.map_eq_nil_iff] at names
    exact formed.declares ⟨names, same.symm⟩
  rw [schemaOf, if_neg held]
  refine (Journaled.Returns.mapM read (related read pairs)).bind fun found all => ?_
  refine (Relationship.settle_warn _ _ _).bind fun relationships within => ?_
  have allowed : ∀ r ∈ relationships, relates r := by
    intro r member
    obtain ⟨some, inside, here⟩ := List.mem_flatten.mp (within member)
    exact all some inside r here
  rw [names]
  exact (readTables_written each allowed (fun _ member => member) pairs draws _ 0).bind
    fun tables described => .pure ⟨same, described⟩

end Written

end Blocks

end SchemaAtlas
