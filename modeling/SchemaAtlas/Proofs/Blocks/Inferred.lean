import SchemaAtlas.Proofs.Blocks.Columns

/-!
Relationships of relation fields without a mapping. Both columns are guessed among all fields of the
models, so they are columns of the tables only where a scalar field has the guessed name.
-/

set_option autoImplicit false

namespace SchemaAtlas

/-- A relationship from a column of a table to a primary key column of a table. -/
def Relationship.JoinsColumns {R : Type} (schema : Schema R) (r : Relationship) : Prop :=
  (∃ table ∈ schema.tables, table.id = r.source ∧
    ∃ column ∈ table.columns, column.name = r.sourceColumn) ∧
  ∃ table ∈ schema.tables, table.id = r.target ∧
    ∃ column ∈ table.columns, column.name = r.targetColumn ∧ column.isPrimaryKey = true

namespace Blocks

open Text

/-- A relation field whose attribute says which columns it joins. -/
def Field.IsMapped (keywords : PrismaKeywords) (field : Field) : Prop :=
  ∃ relation, field.attribute? keywords.relationAttribute = some relation ∧
    (relation.named? "fields").isSome = true ∧ (relation.named? "references").isSome = true

/-- A relationship that is found for a field without a mapping. -/
def IsInferred (keywords : PrismaKeywords) (models : List Model) (r : Relationship) : Prop :=
  ∃ model ∈ models, ∃ field ∈ model.fields, ¬ field.IsMapped keywords ∧
    (model.relationsOfField keywords models field).Returns (r ∈ ·)

/-- What is guessed for a field of a model without a mapping: its target, the field that by its name
holds the key, and the field that by its attribute is the key of the target. -/
structure Guess (keywords : PrismaKeywords) (models : List Model) (model : Model)
    (field : Field) (target : Model) (source column : Field) : Prop where
  declared : field ∈ model.fields
  unmapped : ¬ field.IsMapped keywords
  single : field.isArray = false
  known : models.find? (·.name = field.type) = some target
  named : model.foreignKey? field.name = some source
  keyed : target.fields.find? (·.hasAttribute keywords.idAttribute) = some column

namespace Model

variable {keywords : PrismaKeywords} {models : List Model} {model target : Model} {field : Field}

theorem relationsOf_unmapped (unmapped : ¬ field.IsMapped keywords) :
    model.relationsOf keywords field target = pure
      (if field.isArray then []
      else match model.foreignKey? field.name,
          target.fields.find? (·.hasAttribute keywords.idAttribute) with
        | some source, some column =>
          [Relationship.link model.name source.name target.name column.name]
        | _, _ => []) := by
  unfold relationsOf
  simp only
  split
  next fields references first second =>
    obtain ⟨relation, given, fields⟩ := Option.bind_eq_some_iff.mp first
    rw [given, Option.bind_some] at second
    exact absurd ⟨relation, given, by rw [fields]; rfl, by rw [second]; rfl⟩ unmapped
  next =>
    split
    next => rfl
    next =>
      cases model.foreignKey? field.name with
      | none => rfl
      | some source => cases target.fields.find? (·.hasAttribute keywords.idAttribute) <;> rfl

theorem returns_relationsOfField_iff (unmapped : ¬ field.IsMapped keywords)
    (member : field ∈ model.fields) {r : Relationship} :
    (model.relationsOfField keywords models field).Returns (r ∈ ·) ↔
      ∃ target source column, Guess keywords models model field target source column ∧
        r = Relationship.link model.name source.name target.name column.name := by
  unfold relationsOfField
  constructor
  next =>
    rintro ⟨found, returned, inside⟩
    split at returned
    next target known =>
      rw [relationsOf_unmapped unmapped] at returned
      cases returned
      split at inside
      next => cases inside
      next single =>
        split at inside
        next source column key id =>
          have guess : Guess keywords models model field target source column :=
            ⟨member, unmapped, by simpa using single, known, key, id⟩
          exact ⟨target, source, column, guess, List.mem_singleton.mp inside⟩
        next => cases inside
    next =>
      cases returned
      cases inside
  next =>
    rintro ⟨target, source, column, guess, rfl⟩
    rw [guess.known]
    simp only
    rw [relationsOf_unmapped unmapped, guess.single, guess.named, guess.keyed]
    exact .pure (List.mem_singleton_self _)

theorem mem_links_of_relationsOfField (member : field ∈ model.fields) {r : Relationship}
    (returned : (model.relationsOfField keywords models field).Returns (r ∈ ·)) :
    r ∈ model.links keywords models := by
  obtain ⟨found, outcome, inside⟩ := returned
  have all := relationships_outcome keywords models model
  rw [relationships, Journaled.bind_outcome_ok] at all
  obtain ⟨lists, each, same⟩ := all
  rw [← Except.ok.inj same]
  obtain ⟨again, listed, here⟩ := exists_of_forall₂ (Journaled.forall₂_of_mapM each).flip member
  cases outcome.symm.trans here
  exact List.mem_flatten.mpr ⟨found, listed, inside⟩

/-- A column of the table has the name. -/
def HasScalar (models : List Model) (model : Model) (name : String) : Prop :=
  ∃ field ∈ model.scalars (models.map (·.name)), field.name = name

/-- A key column of the table has the name. -/
def HasKey (keywords : PrismaKeywords) (models : List Model) (model : Model) (name : String) : Prop :=
  ∃ field ∈ model.scalars (models.map (·.name)), field.name = name ∧
    (field.hasAttribute keywords.idAttribute = true ∨ name ∈ (model.marks keywords).compositeKey)

end Model

variable {R : Type} {config : Config R} {models : List Model}

namespace Model.Makes

variable {enums : List String} {model : Model} {table : Table R}

theorem hasScalar_iff (makes : model.Makes config (models.map (·.name)) enums table)
    {name : String} :
    (∃ column ∈ table.columns, column.name = name) ↔ model.HasScalar models name := by
  constructor
  · rintro ⟨column, member, rfl⟩
    obtain ⟨field, scalar, made⟩ := exists_of_forall₂ makes.columns member
    exact ⟨field, scalar, made.name.symm⟩
  · rintro ⟨field, scalar, rfl⟩
    obtain ⟨column, member, made⟩ := exists_of_forall₂ makes.columns.flip scalar
    exact ⟨column, member, made.name⟩

theorem hasKey_iff (makes : model.Makes config (models.map (·.name)) enums table) {name : String} :
    (∃ column ∈ table.columns, column.name = name ∧ column.isPrimaryKey = true) ↔
      model.HasKey config.prismaKeywords models name := by
  constructor
  · rintro ⟨column, member, rfl, key⟩
    obtain ⟨field, scalar, made⟩ := exists_of_forall₂ makes.columns member
    rw [made.isPrimaryKey, Bool.or_eq_true, decide_eq_true_eq] at key
    exact ⟨field, scalar, made.name.symm, made.name.symm ▸ key⟩
  · rintro ⟨field, scalar, rfl, key⟩
    obtain ⟨column, member, made⟩ := exists_of_forall₂ makes.columns.flip scalar
    refine ⟨column, member, made.name, ?_⟩
    rwa [made.isPrimaryKey, Bool.or_eq_true, decide_eq_true_eq]

/-- Of several tables one is the model's, for models of different names. -/
theorem exists_table_iff {tables : List (Table R)} (distinct : Distinct models)
    (made : List.Forall₂ (Model.Makes config (models.map (·.name)) enums) models tables)
    {holds : Table R → Prop} {fact : Prop} (member : model ∈ models)
    (each : ∀ table, model.Makes config (models.map (·.name)) enums table → (holds table ↔ fact)) :
    (∃ table ∈ tables, table.id = model.name ∧ holds table) ↔ fact := by
  constructor
  · rintro ⟨table, present, id, held⟩
    obtain ⟨other, inside, makes⟩ := exists_of_forall₂ made present
    have same : other = model :=
      List.inj_on_of_nodup_map distinct inside member (makes.id.symm.trans id)
    exact (each table (same ▸ makes)).mp held
  · intro said
    obtain ⟨table, present, makes⟩ := exists_of_forall₂ made.flip member
    exact ⟨table, present, makes.id, (each table makes).mpr said⟩

end Model.Makes

theorem isInferred_iff {keywords : PrismaKeywords} {r : Relationship} :
    IsInferred keywords models r ↔ ∃ model ∈ models, ∃ field target source column,
      Guess keywords models model field target source column ∧
        r = Relationship.link model.name source.name target.name column.name := by
  constructor
  · rintro ⟨model, present, field, member, unmapped, returned⟩
    obtain ⟨target, source, column, guess, same⟩ :=
      (Model.returns_relationsOfField_iff unmapped member).mp returned
    exact ⟨model, present, field, target, source, column, guess, same⟩
  · rintro ⟨model, present, field, target, source, column, guess, same⟩
    exact ⟨model, present, field, guess.declared, guess.unmapped,
      (Model.returns_relationsOfField_iff guess.unmapped guess.declared).mpr
        ⟨target, source, column, guess, same⟩⟩

theorem Model.mem_ownLinks_iff {model : Model} {r : Relationship} :
    r ∈ model.ownLinks config models ↔ r ∈ model.links config.prismaKeywords models := by
  refine ⟨Relationship.mem_of_mem_kept, fun member => ?_⟩
  have named : ∀ r ∈ model.links config.prismaKeywords models, r.IsNamed :=
    (relationships_keeps config.prismaKeywords models model).value _ (relationships_outcome _ _ _)
  unfold ownLinks Relationship.kept
  split
  next =>
    -- The link that is kept in place of this one joins the same, so it is this one.
    obtain ⟨first, kept, same⟩ := Relationship.exists_mem_deduplicate member
    have inside := Relationship.mem_of_mem_deduplicate kept
    rwa [Relationship.eq_of_linkKey (named r member) (named first inside) same.symm]
  next => exact member

/-- Whatever is guessed for relation fields without a mapping is a relationship of the schema. All of
it joins a column to a primary key column exactly if each guessed field has the name of a scalar
field, and on the side of the target of one in the key. -/
theorem inferred_join_iff [Coordinate R] (config : Config R) (draws : Nat → R) (text : List Char)
    (schema : Schema R) (read : (readSchema config draws text).outcome = .ok schema) :
    ∃ models enums,
      (collect config.prismaKeywords (stripComments text)).outcome = .ok (models, enums) ∧
      (∀ r, IsInferred config.prismaKeywords models r → r ∈ schema.relationships) ∧
      ((∀ r, IsInferred config.prismaKeywords models r → r.JoinsColumns schema) ↔
        ∀ model ∈ models, ∀ field target source column,
          Guess config.prismaKeywords models model field target source column →
            model.HasScalar models source.name ∧
              target.HasKey config.prismaKeywords models column.name) := by
  obtain ⟨models, enums, collected, -, links, made⟩ := makes_of_readSchema read
  have distinct : Distinct models := (collect_keeps _ _).value _ collected
  refine ⟨models, enums, collected, ?_, ?_⟩
  next =>
    rintro r ⟨model, present, field, member, -, returned⟩
    rw [links]
    exact List.mem_flatMap.mpr ⟨model, present, Model.mem_ownLinks_iff.mpr
      (Model.mem_links_of_relationsOfField member returned)⟩
  next =>
    -- Names of models are distinct, so that each end of a link belongs to one table.
    have joins (model : Model) (present : model ∈ models) {field source column : Field}
        {target : Model} (guess : Guess config.prismaKeywords models model field target source column) :
        (Relationship.link model.name source.name target.name column.name).JoinsColumns schema ↔
          model.HasScalar models source.name ∧
            target.HasKey config.prismaKeywords models column.name :=
      and_congr
        (Model.Makes.exists_table_iff distinct made present fun _ makes => makes.hasScalar_iff)
        (Model.Makes.exists_table_iff distinct made (List.mem_of_find?_eq_some guess.known)
          fun _ makes => makes.hasKey_iff)
    constructor
    next =>
      intro all model present field target source column guess
      exact (joins model present guess).mp (all _ (isInferred_iff.mpr
        ⟨model, present, field, target, source, column, guess, rfl⟩))
    next =>
      intro scalars r inferred
      obtain ⟨model, present, field, target, source, column, guess, rfl⟩ :=
        isInferred_iff.mp inferred
      exact (joins model present guess).mpr
        (scalars model present field target source column guess)

def posts : List Char :=
  ("model User \x7b\n  id Int @id\n\x7d\n" ++
    "model Post \x7b\n  id Int @id\n  userId Int\n  user User\n\x7d\n").toList

theorem inferred_join_iff_posts : ∃ schema,
    (readSchema (Config.default : Config Int) (fun _ => 0) posts).outcome = .ok schema ∧
      schema.relationships = [Relationship.link "Post" "userId" "User" "id"] ∧
      ∃ models enums, (collect {} (stripComments posts)).outcome = .ok (models, enums) ∧
        ∀ r, IsInferred {} models r → r ∈ schema.relationships := by
  have read : (readSchema (Config.default : Config Int) (fun _ => 0) posts).outcome.toOption.map
      (·.relationships) = some [Relationship.link "Post" "userId" "User" "id"] := by
    decide +kernel
  obtain ⟨schema, held, links⟩ := Option.map_eq_some_iff.mp read
  have found := toOption_eq_some.mp held
  obtain ⟨models, enums, collected, kept, -⟩ := inferred_join_iff _ _ _ schema found
  exact ⟨schema, found, links, models, enums, collected, kept⟩

/-- A relation field that is named like the key of another. -/
def owners : List Char :=
  ("model User \x7b\n  id Int @id\n\x7d\n" ++
    "model Post \x7b\n  id Int @id\n  user User\n  userId User\n\x7d\n").toList

theorem inferred_key_is_no_column : ∃ models enums schema,
    (collect {} (stripComments owners)).outcome = .ok (models, enums) ∧
      (readSchema (Config.default : Config Int) (fun _ => 0) owners).outcome = .ok schema ∧
      ∃ r ∈ schema.relationships, IsInferred {} models r ∧ ¬ r.JoinsColumns schema := by
  have read : (readSchema (Config.default : Config Int) (fun _ => 0) owners).outcome.toOption.map
      (fun schema => (schema.relationships,
        schema.tables.map fun table => (table.id, table.columns.map (·.name)))) =
      some ([Relationship.link "Post" "userId" "User" "id"],
        [("User", ["id"]), ("Post", ["id"])]) := by
    decide +kernel
  have guessed : (collect {} (stripComments owners)).outcome.toOption.any (fun found =>
      found.1.any fun model => model.fields.any fun field =>
        field.attribute? "relation" = none ∧
          (model.relationsOfField {} found.1 field).outcome.toOption =
            some [Relationship.link "Post" "userId" "User" "id"]) = true := by
    decide +kernel
  obtain ⟨schema, held, parts⟩ := Option.map_eq_some_iff.mp read
  obtain ⟨links, columns⟩ := Prod.mk.inj parts
  cases collected : (collect {} (stripComments owners)).outcome with
  | error fault =>
    rw [collected] at guessed
    cases guessed
  | ok found =>
    rw [collected] at guessed
    obtain ⟨model, present, some⟩ := List.any_eq_true.mp guessed
    obtain ⟨field, member, holds⟩ := List.any_eq_true.mp some
    obtain ⟨bare, returned⟩ := of_decide_eq_true holds
    have unmapped : ¬ field.IsMapped {} := by
      rintro ⟨relation, given, -⟩
      cases bare.symm.trans given
    refine ⟨found.1, found.2, schema, rfl, toOption_eq_some.mp held, _,
      links.symm ▸ List.mem_singleton_self _,
      ⟨model, present, field, member, unmapped, _, toOption_eq_some.mp returned,
        List.mem_singleton_self _⟩, ?_⟩
    rintro ⟨⟨table, inside, id, column, listed, named⟩, -⟩
    have entry := List.mem_map_of_mem (f := fun table : Table Int =>
      (table.id, table.columns.map (·.name))) inside
    rw [columns] at entry
    have post : (table.id, table.columns.map (·.name)) = ("Post", ["id"]) := by
      simpa [id, Relationship.link] using entry
    have here : column.name ∈ ["id"] := (Prod.mk.inj post).2 ▸ List.mem_map_of_mem listed
    rw [named] at here
    exact absurd here (by decide)

end Blocks

end SchemaAtlas
