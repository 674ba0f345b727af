import SchemaAtlas.Blocks.Schema
import SchemaAtlas.Proofs.Journaled
import SchemaAtlas.Proofs.Reports

/-!
Tables of models. Here a column gets its reference from the relationships, not the other way round:
what the columns of a table reference can be read off the relationships of the schema.
-/

set_option autoImplicit false

namespace SchemaAtlas.Blocks

namespace Model

variable {relationships : List Relationship}

theorem reference?_eq_some {model field : String} {reference : ColumnReference}
    (referenced : reference? relationships model field = some reference) :
    ∃ relationship ∈ relationships,
      relationship.linkKey = ⟨model, field, reference.table, reference.column⟩ := by
  -- Of several relationships of one column the last is taken; any of them would do here.
  obtain ⟨relationship, last, rfl⟩ := Option.map_eq_some_iff.mp referenced
  have member := List.mem_of_getLast? last
  simp only [List.mem_filter, decide_eq_true_eq] at member
  obtain ⟨present, rfl, rfl⟩ := member
  exact ⟨relationship, present, rfl⟩

theorem reference?_isSome {relationship : Relationship} (member : relationship ∈ relationships) :
    (reference? relationships relationship.source relationship.sourceColumn).isSome := by
  have held : relationships.filter (fun other => other.source = relationship.source ∧
      other.sourceColumn = relationship.sourceColumn) ≠ [] :=
    List.ne_nil_of_mem (List.mem_filter.mpr ⟨member, by simp⟩)
  simpa only [reference?, Option.isSome_map, List.getLast?_isSome] using held

end Model

variable {R : Type}

/-- Each column of the tables references what the relationships say of it. -/
def Reflects (relationships : List Relationship) (tables : List (Table R)) : Prop :=
  ∀ table ∈ tables, ∀ column ∈ table.columns,
    column.references = Model.reference? relationships table.id column.name

/-- What the making of a column fails with: the types fail, or the column is refused. -/
inductive ColumnFails (types : TypeProvider) : Fault → Prop
  | typed {name : String} {fault : Fault} (failed : types.resolve name = .error fault) :
      ColumnFails types fault
  | refused (refusal : Refusal) : ColumnFails types (.refused refusal)

theorem ColumnFails.speaks {types : TypeProvider} {fault : Fault}
    (fails : ColumnFails types fault) : fault.Speaks := by
  cases fails with
  | typed failed => exact types.speaks _ fault failed
  | refused refusal => exact Fault.refused_speaks refusal

namespace Field

theorem columnType_fails (keywords : PrismaKeywords) (types : TypeProvider) (enums : List String)
    (field : Field) : FailsOnly (ColumnFails types) (columnType keywords types enums field) := by
  unfold columnType
  split
  next => exact .ok _
  next => exact .ok _
  next =>
    split
    next fault failed => exact .error (.typed failed)
    next => exact .ok _
    next => split <;> exact .ok _

theorem column_fails (keywords : PrismaKeywords) (types : TypeProvider)
    (enums compositeKey : List String) (reference : Option ColumnReference) (field : Field) :
    FailsOnly (ColumnFails types) (column keywords types enums compositeKey reference field) :=
  .bind (columnType_fails _ _ _ _) fun _ => .mapError .refused

theorem column_eq_ok {keywords : PrismaKeywords} {types : TypeProvider}
    {enums compositeKey : List String} {reference : Option ColumnReference} {field : Field}
    {found : Column} (read : column keywords types enums compositeKey reference field = .ok found) :
    found.name = field.name ∧ found.references = reference := by
  obtain ⟨type, -, built⟩ := bind_eq_ok.mp read
  exact Column.ofFields?_eq_ok (mapError_eq_ok.mp built)

theorem column_reference (keywords : PrismaKeywords) (types : TypeProvider)
    (enums compositeKey : List String) (reference : Option ColumnReference) (field : Field) :
    column keywords types enums compositeKey reference field =
      (column keywords types enums compositeKey none field).map
        fun column => { column with references := reference } := by
  unfold column
  cases columnType keywords types enums field with
  | error fault => rfl
  | ok type =>
    simp only [bind, Except.bind]
    rw [Column.ofFields?_references]
    cases Column.ofFields? field.name _ _ _ _ none _ <;> rfl

end Field

theorem Model.columns_fails (keywords : PrismaKeywords) (types : TypeProvider)
    (models enums : List String) (relationships : List Relationship) (model : Model) :
    FailsOnly (ColumnFails types) (model.columns keywords types models enums relationships) :=
  .mapM _ fun _ _ => Field.column_fails _ _ _ _ _ _

theorem Model.references_of_columns {keywords : PrismaKeywords} {types : TypeProvider}
    {models enums : List String} {relationships : List Relationship} {model : Model}
    {found : List Column}
    (read : model.columns keywords types models enums relationships = .ok found) :
    ∀ column ∈ found, column.references = reference? relationships model.name column.name := by
  intro column member
  obtain ⟨field, -, here⟩ := exists_of_mem_mapM read member
  obtain ⟨named, referenced⟩ := Field.column_eq_ok here
  rw [named, referenced]

/-- The table with the references that the relationships give to its columns. -/
def relink (relationships : List Relationship) (table : Table R) : Table R :=
  { table with
    columns := table.columns.map fun column =>
      { column with references := Model.reference? relationships table.id column.name } }

theorem relink_relink (first second : List Relationship) (table : Table R) :
    relink second (relink first table) = relink second table := by
  simp [relink]

theorem Model.columns_relationships (keywords : PrismaKeywords) (types : TypeProvider)
    (models enums : List String) (relationships : List Relationship) (model : Model) :
    model.columns keywords types models enums relationships =
      (model.columns keywords types models enums []).map (List.map fun column =>
        { column with references := reference? relationships model.name column.name }) := by
  refine mapM_eq_map _ fun field _ => ?_
  rw [Field.column_reference, show reference? [] model.name field.name = none from rfl]
  cases read : Field.column keywords types enums (model.marks keywords).compositeKey none field with
  | error fault => rfl
  | ok column => simp [Except.map, (Field.column_eq_ok read).1]

variable [Coordinate R]

theorem readTable_relationships (config : Config R) (draws : Nat → R) (models enums : List String)
    (relationships : List Relationship) (place : Nat) (model : Model) :
    readTable config draws models enums relationships place model =
      relink relationships <$> readTable config draws models enums [] place model := by
  simp only [readTable, Model.columns_relationships _ _ _ _ relationships, ← Journaled.map_ofExcept,
    map_bind, bind_map_left]
  rfl

theorem readTables_relationships (config : Config R) (draws : Nat → R) (models enums : List String)
    (relationships : List Relationship) (place : Nat) (rest : List Model) :
    readTables config draws models enums relationships place rest =
      List.map (relink relationships) <$> readTables config draws models enums [] place rest := by
  induction rest generalizing place with
  | nil => rfl
  | cons model rest ih =>
    simp only [readTables, readTable_relationships _ _ _ _ relationships, ih, map_bind,
      bind_map_left, map_pure, List.map_cons]

/-- The relationships that tables are read with decide on nothing but their references. -/
theorem readTables_relink (config : Config R) (draws : Nat → R) (models enums : List String)
    (first second : List Relationship) (place : Nat) (rest : List Model) :
    readTables config draws models enums second place rest =
      List.map (relink second) <$> readTables config draws models enums first place rest := by
  have last : List.map (relink second) ∘ List.map (relink first) =
      (List.map (relink second) : List (Table R) → List (Table R)) := by
    funext tables
    simp [relink_relink]
  rw [readTables_relationships _ _ _ _ first, readTables_relationships _ _ _ _ second,
    ← comp_map, last]

theorem readTable_keeps (config : Config R) (draws : Nat → R) (models enums : List String)
    (relationships : List Relationship) (place : Nat) (model : Model) :
    (readTable config draws models enums relationships place model).Keeps (·.reportsDrop = false)
      (ColumnFails config.prismaTypes)
      (fun table => table.id = model.name ∧ Reflects relationships [table]) := by
  unfold readTable
  refine .bind (.ofExcept (Model.columns_fails _ _ _ _ _ _) fun _ read =>
    Model.references_of_columns read) fun columns referenced => ?_
  exact Journaled.draw_keeps.bind fun _ _ => .pure ⟨rfl, by simpa [Reflects] using referenced⟩

theorem readTables_keeps (config : Config R) (draws : Nat → R) (models enums : List String)
    (relationships : List Relationship) (place : Nat) (rest : List Model) :
    (readTables config draws models enums relationships place rest).Keeps (·.reportsDrop = false)
      (ColumnFails config.prismaTypes)
      (fun tables => tables.map (·.id) = rest.map (·.name) ∧ Reflects relationships tables) := by
  induction rest generalizing place with
  | nil => exact .pure ⟨rfl, by simp [Reflects]⟩
  | cons model rest ih =>
    refine (readTable_keeps _ _ _ _ _ place model).bind fun table ⟨named, first⟩ => ?_
    refine (ih (place + 1)).bind fun tables ⟨names, later⟩ => .pure ⟨by simp [named, names], ?_⟩
    intro other member
    rcases List.mem_cons.mp member with rfl | member
    · exact first other (by simp)
    · exact later other member

theorem readTables_congr {config config' : Config R}
    (keywords : config.prismaKeywords = config'.prismaKeywords)
    (types : config.prismaTypes = config'.prismaTypes)
    (layout : config.layout = config'.layout) : readTables config = readTables config' := by
  funext draws models enums relationships place rest
  induction rest generalizing place with
  | nil => rfl
  | cons model rest ih => simp only [readTables, readTable, keywords, types, layout, ih]

end SchemaAtlas.Blocks
