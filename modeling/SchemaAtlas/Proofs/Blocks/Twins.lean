import SchemaAtlas.Proofs.Alike
import SchemaAtlas.Proofs.Blocks.Parts

/-!
Two models that differ in nothing but their attributes, which say the same of the table up to its
name. A schema with one of them is read like a schema with the other, and only the name of that table
differs.
-/

set_option autoImplicit false

namespace SchemaAtlas

/-- Two schemas in which one table has different names, and which are the same apart from that. -/
def Schema.DifferInName {R : Type} (id name again : String) (schema other : Schema R) : Prop :=
  ∃ front table back, schema.tables = front ++ table :: back ∧ table.id = id ∧ table.name = name ∧
    other = { schema with tables := front ++ { table with name := again } :: back }

theorem Schema.DifferInName.eq {R : Type} {id name again : String} {schema other : Schema R}
    (differ : schema.DifferInName id name again other) (same : name = again) : schema = other := by
  subst same
  obtain ⟨front, table, back, listed, -, rfl, rfl⟩ := differ
  exact congrArg (fun tables => { schema with tables }) listed

namespace Blocks

/-- Two models with the same fields whose attributes say the same of the table, its name apart. -/
structure Model.Twins (keywords : PrismaKeywords) (model other : Model) : Prop where
  name : model.name = other.name
  fields : model.fields = other.fields
  indexes : (model.marks keywords).indexes = (other.marks keywords).indexes
  compositeKey : (model.marks keywords).compositeKey = (other.marks keywords).compositeKey

/-- The same models, but for one in the place of another. -/
def Swapped (first second : Model) (models others : List Model) : Prop :=
  ∃ front back, first.name ∉ front.map (·.name) ∧ models = front ++ first :: back ∧
    others = front ++ second :: back

/-- What is left of that difference when models of some names have been declared behind it. -/
def SwappedUnder (names : List String) (first second : Model) (models others : List Model) : Prop :=
  if first.name ∈ names then models = others else Swapped first second models others

section Collected

variable {first second : Model}

theorem Swapped.cons {models others : List Model} (swapped : Swapped first second models others)
    {model : Model} (apart : model.name ≠ first.name) :
    Swapped first second (model :: models) (model :: others) := by
  obtain ⟨front, back, absent, rfl, rfl⟩ := swapped
  exact ⟨model :: front, back, by simpa [apart.symm] using absent, rfl, rfl⟩

theorem addModel_put (named : first.name = second.name) (models : List Model) :
    Journaled.Alike (Swapped first second) (addModel models first) (addModel models second) := by
  induction models with
  | nil => exact .pure ⟨[], [], List.not_mem_nil, rfl, rfl⟩
  | cons model models ih =>
    rw [addModel, addModel, ← named]
    split
    next => exact .after _ fun _ => .pure ⟨[], models, List.not_mem_nil, rfl, rfl⟩
    next apart => exact ih.bind fun _ _ swapped => .pure (swapped.cons apart)

theorem addModel_apart (named : first.name = second.name) {models others : List Model}
    (swapped : Swapped first second models others) {model : Model}
    (apart : model.name ≠ first.name) :
    Journaled.Alike (Swapped first second) (addModel models model) (addModel others model) := by
  obtain ⟨front, back, absent, rfl, rfl⟩ := swapped
  induction front with
  | nil =>
    rw [List.nil_append, List.nil_append, addModel, addModel, if_neg apart.symm,
      if_neg (named ▸ apart.symm)]
    exact .after _ fun found => .pure ⟨[], found, List.not_mem_nil, rfl, rfl⟩
  | cons other front ih =>
    rw [List.map_cons, List.mem_cons, not_or] at absent
    rw [List.cons_append, List.cons_append, addModel, addModel]
    split
    next =>
      exact .after _ fun _ => .pure (Swapped.cons ⟨front, back, absent.2, rfl, rfl⟩ apart)
    next => exact (ih absent.2).bind fun _ _ swapped => .pure (swapped.cons (Ne.symm absent.1))

theorem addModel_over (named : first.name = second.name) {models others : List Model}
    (swapped : Swapped first second models others) {model : Model}
    (same : model.name = first.name) : addModel models model = addModel others model := by
  obtain ⟨front, back, absent, rfl, rfl⟩ := swapped
  induction front with
  | nil =>
    rw [List.nil_append, List.nil_append, addModel, addModel, if_pos same.symm,
      if_pos (named.symm.trans same.symm)]
  | cons other front ih =>
    rw [List.map_cons, List.mem_cons, not_or] at absent
    have apart : other.name ≠ model.name := fun here => absent.1 (same.symm.trans here.symm)
    rw [List.cons_append, List.cons_append, addModel, addModel, if_neg apart, if_neg apart,
      ih absent.2]

/-- The difference stays until a model of the same name is declared. -/
theorem foldlM_addModel_swapped (named : first.name = second.name) (declared : List Model)
    {models others : List Model} (swapped : Swapped first second models others) :
    Journaled.Alike (SwappedUnder (declared.map (·.name)) first second)
      (declared.foldlM addModel models) (declared.foldlM addModel others) := by
  unfold SwappedUnder
  induction declared generalizing models others with
  | nil => exact .pure (by simpa using swapped)
  | cons model declared ih =>
    rw [List.foldlM_cons, List.foldlM_cons]
    by_cases same : model.name = first.name
    · rw [addModel_over named swapped same]
      simpa [same] using Journaled.Alike.self _
    · refine (addModel_apart named swapped same).bind fun _ _ later => ?_
      simpa [Ne.symm same] using ih later

theorem foldlM_addModel_put (named : first.name = second.name) (declared others : List Model) :
    Journaled.Alike (SwappedUnder (others.map (·.name)) first second)
      ((declared ++ first :: others).foldlM addModel [])
      ((declared ++ second :: others).foldlM addModel []) := by
  rw [List.foldlM_append, List.foldlM_append]
  refine .after _ fun models => ?_
  rw [List.foldlM_cons, List.foldlM_cons]
  exact (addModel_put named models).bind fun _ _ swapped =>
    foldlM_addModel_swapped named others swapped

end Collected

namespace Model

def bare (model : Model) : Model := { name := model.name, fields := model.fields, line := 0 }

/-- No relationship depends on the `@@` attributes. -/
theorem relationships_bare (keywords : PrismaKeywords) (models : List Model) (model : Model) :
    model.bare.relationships keywords (models.map bare) = model.relationships keywords models := by
  have each (field : Field) : model.bare.relationsOfField keywords (models.map bare) field =
      model.relationsOfField keywords models field := by
    have known : (models.map bare).find? (·.name = field.type) =
        (models.find? (·.name = field.type)).map bare := List.find?_map
    rw [relationsOfField, relationsOfField, known]
    cases models.find? (·.name = field.type) <;> rfl
  rw [relationships, relationships]
  exact congrArg (· >>= _) (mapM_congr fun field _ => each field)

theorem mapM_relationships_bare (keywords : PrismaKeywords) (models : List Model) :
    models.mapM (relationships keywords models) =
      (models.map bare).mapM (relationships keywords (models.map bare)) := by
  rw [List.mapM_map]
  exact mapM_congr fun model _ => (relationships_bare keywords models model).symm

variable {R : Type} {config : Config R}

theorem Twins.columns {model other : Model} (twins : model.Twins config.prismaKeywords other)
    (models enums : List String) (relationships : List Relationship) :
    model.columns config.prismaKeywords config.prismaTypes models enums relationships =
      other.columns config.prismaKeywords config.prismaTypes models enums relationships := by
  rw [Model.columns, Model.columns, twins.fields, twins.compositeKey, twins.name]

end Model

section Schemas

variable {R : Type} [Coordinate R] {config : Config R} {first second : Model}
  (twins : first.Twins config.prismaKeywords second) (draws : Nat → R)

include twins

theorem readTable_twins (names enums : List String) (relationships : List Relationship)
    (place : Nat) :
    Journaled.Alike
      (fun table again => table.id = first.name ∧
        table.name = (first.marks config.prismaKeywords).name ∧
        again = { table with name := (second.marks config.prismaKeywords).name })
      (readTable config draws names enums relationships place first)
      (readTable config draws names enums relationships place second) := by
  rw [readTable, readTable, twins.columns]
  refine .after _ fun columns => .after _ fun _ => .pure ⟨rfl, rfl, ?_⟩
  simp [twins.name, twins.indexes]

theorem readTables_swapped (names enums : List String) (relationships : List Relationship)
    (place : Nat) (front back : List Model) :
    Journaled.Alike
      (fun tables others => ∃ before table behind, tables = before ++ table :: behind ∧
        table.id = first.name ∧ table.name = (first.marks config.prismaKeywords).name ∧
        others = before ++
          { table with name := (second.marks config.prismaKeywords).name } :: behind)
      (readTables config draws names enums relationships place (front ++ first :: back))
      (readTables config draws names enums relationships place (front ++ second :: back)) := by
  induction front generalizing place with
  | nil =>
    rw [List.nil_append, List.nil_append, readTables, readTables]
    refine (readTable_twins twins draws names enums relationships place).bind fun table again found =>
      .after _ fun later => .pure ?_
    obtain ⟨id, name, rfl⟩ := found
    exact ⟨[], table, later, rfl, id, name, rfl⟩
  | cons model front ih =>
    rw [List.cons_append, List.cons_append, readTables, readTables]
    refine .after _ fun table => (ih (place + 1)).bind fun tables others found => .pure ?_
    obtain ⟨before, here, behind, rfl, id, name, rfl⟩ := found
    exact ⟨table :: before, here, behind, rfl, id, name, rfl⟩

/-- Schemas with one of two twins differ in the name of its table only. -/
theorem schemaOf_swapped {models others : List Model} (swapped : Swapped first second models others)
    (enums : List Enumeration) :
    Journaled.Alike (Schema.DifferInName first.name (first.marks config.prismaKeywords).name
        (second.marks config.prismaKeywords).name)
      (schemaOf config draws models enums) (schemaOf config draws others enums) := by
  obtain ⟨front, back, -, rfl, rfl⟩ := swapped
  have names : (front ++ first :: back).map (·.name) = (front ++ second :: back).map (·.name) := by
    simp [twins.name]
  have bare : (front ++ first :: back).map Model.bare = (front ++ second :: back).map Model.bare := by
    simp [Model.bare, twins.name, twins.fields]
  have empty : (front ++ first :: back).isEmpty = (front ++ second :: back).isEmpty := by
    cases front <;> rfl
  rw [schemaOf, schemaOf, empty, names, Model.mapM_relationships_bare, bare,
    ← Model.mapM_relationships_bare]
  split
  · exact .fail _
  · refine .after _ fun found => .after _ fun relationships => ?_
    refine (readTables_swapped twins draws _ _ relationships 0 front back).bind
      fun tables others found => .pure ?_
    obtain ⟨before, table, behind, rfl, id, name, rfl⟩ := found
    exact ⟨before, table, behind, rfl, id, name, rfl⟩

end Schemas

end Blocks

end SchemaAtlas
