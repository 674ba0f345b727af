import SchemaAtlas.Proofs.Blocks.Refusals

/-!
The relationships of a schema written in blocks join models that it declares, so there is nothing
for the mode for unknown tables to decide.
-/

set_option autoImplicit false

namespace SchemaAtlas.Blocks

open Text

/-- The collected models have the names of the declared ones, each at the place of its first
declaration. -/
theorem names_of_collect {keywords : PrismaKeywords} {cs : List Char} {models : List Model}
    {enums : List Enumeration} (collected : (collect keywords cs).outcome = .ok (models, enums)) :
    models.map (·.name) = ((blocks keywords.modelKeyword cs).blocks.map (·.name)).eraseDups := by
  obtain ⟨-, declared, read, rfl⟩ := collect_eq_ok.mp collected
  have names : declared.map (·.name) = (blocks keywords.modelKeyword cs).blocks.map (·.name) :=
    map_of_mapM (readBlocks_eq_ok.mp read).1 fun _ _ found => Model.ofLines?_name found
  rw [Keyed.keys_merge, names]

/-- What a reading of blocks fails with. Only a text that does not look like blocks is denied. -/
inductive Fails (keywords : PrismaKeywords) (types : TypeProvider) (cleaned : List Char) :
    Fault → Prop
  | denied (other : looksLike keywords cleaned = false) : Fails keywords types cleaned
      (.dialectMismatch noDeclarations (some Dialect.prisma.label))
  | unbalanced :
    Fails keywords types cleaned (.structural "Unbalanced braces in Prisma schema" {})
  | stopped {fault : Fault} (stops : Stops fault) : Fails keywords types cleaned fault
  | empty :
    Fails keywords types cleaned (.emptySchema "No valid model/enum declarations found" {})
  | column {fault : Fault} (fails : ColumnFails types fault) : Fails keywords types cleaned fault

/-- No unknown table is reported, unless by the types. -/
theorem Fails.of_unresolved {keywords : PrismaKeywords} {types : TypeProvider}
    {cleaned : List Char} {fault : Fault} (fails : Fails keywords types cleaned fault)
    (unresolved : fault.isUnresolvedReference = true) :
    ∃ name, types.resolve name = .error fault := by
  cases fails with
  | denied | unbalanced | empty => cases unresolved
  | stopped stops =>
    obtain ⟨_, _, -, rfl⟩ := stops
    cases unresolved
  | column fails =>
    cases fails with
    | typed failed => exact ⟨_, failed⟩
    | refused => cases unresolved

variable {R : Type} [Coordinate R]

theorem schemaOf_mode (config : Config R) (draws : Nat → R) (mode : ErrorMode) (models : List Model)
    (enums : List Enumeration) :
    schemaOf { config with onUnresolved := mode } draws models enums =
      schemaOf config draws models enums := by
  have same : readTables { config with onUnresolved := mode } = readTables config :=
    readTables_congr rfl rfl rfl
  obtain ⟨found, related, joins⟩ := Model.joins_of_mapM_relationships config.prismaKeywords models
  simp only [schemaOf, same]
  split
  next => rfl
  next =>
    refine Journaled.bind_congr fun links others => ?_
    cases related.symm.trans others
    rw [Relationship.settle_of_joins mode _ joins, Relationship.settle_of_joins _ _ joins]

theorem schemaOf_fails (config : Config R) (draws : Nat → R) (cleaned : List Char)
    (models : List Model) (enums : List Enumeration) :
    (schemaOf config draws models enums).Keeps (·.reportsDrop = false)
      (Fails config.prismaKeywords config.prismaTypes cleaned) fun _ => True := by
  obtain ⟨found, related, joins⟩ := Model.joins_of_mapM_relationships config.prismaKeywords models
  have links : (models.mapM (Model.relationships config.prismaKeywords models)).Keeps
      (·.reportsDrop = false) (Fails config.prismaKeywords config.prismaTypes cleaned) (· = found) :=
    { warnings := (Model.mapM_relationships_keeps config.prismaKeywords models).warnings
      fault := fun fault failed => by cases related.symm.trans failed
      value := fun others again => by cases related.symm.trans again; rfl }
  unfold schemaOf
  split
  next => exact .fail .empty
  next =>
    refine links.bind fun others same => ?_
    rw [same, Relationship.settle_of_joins _ _ joins, pure_bind]
    have column (fault : Fault) (fails : ColumnFails config.prismaTypes fault) :
        Fails config.prismaKeywords config.prismaTypes cleaned fault := .column fails
    have built := (readTables_keeps config draws (models.map (·.name)) (enums.map (·.name))
      (Relationship.kept config.deduplicateRelationships found.flatten) 0 models).impFault column
    exact built.bind fun _ _ => .pure trivial

theorem readSchema_fails (config : Config R) (draws : Nat → R) (text : List Char) :
    (readSchema config draws text).Keeps (·.reportsDrop = false)
      (Fails config.prismaKeywords config.prismaTypes (stripComments text)) fun _ => True := by
  have collected : (collect config.prismaKeywords (stripComments text)).Keeps
      (·.reportsDrop = false) (Fails config.prismaKeywords config.prismaTypes (stripComments text))
      fun _ => True :=
    { warnings := (collect_keeps config.prismaKeywords (stripComments text)).warnings
      fault := fun fault failed => .stopped (collect_stops _ _ fault failed)
      value := fun _ _ => trivial }
  unfold readSchema
  simp only
  split
  next other => exact .fail (.denied (by simpa using other))
  next =>
    split
    next => exact .fail .unbalanced
    next => exact collected.bind fun found _ => schemaOf_fails config draws _ found.1 found.2

/-- Every relationship of the models that a text declares joins two of them, also where a later
declaration took the place of an earlier one. So the modes for unknown tables give one outcome and
one journal, in which no relationship is dropped; a fault about an unknown table can only be one
that the types themselves give. -/
theorem readSchema_in_every_mode (config : Config R) (draws : Nat → R) (text : List Char) :
    (∀ mode, readSchema { config with onUnresolved := mode } draws text =
      readSchema config draws text) ∧
    (∀ fault, (readSchema config draws text).outcome = .error fault →
      fault.isUnresolvedReference = true → ∃ name, config.prismaTypes.resolve name = .error fault) ∧
    (∀ warning ∈ (readSchema config draws text).journal.warnings, warning.reportsDrop = false) ∧
    ∀ models enums,
      (collect config.prismaKeywords (stripComments text)).outcome = .ok (models, enums) →
      models.map (·.name) = ((blocks config.prismaKeywords.modelKeyword
          (stripComments text)).blocks.map (·.name)).eraseDups ∧
        (models.mapM (Model.relationships config.prismaKeywords models)).Returns fun found =>
          ∀ r ∈ found.flatten, r.Joins (models.map (·.name)) := by
  refine ⟨fun mode => ?_, ?_, ?_, fun models enums collected => ?_⟩
  next =>
    have same : schemaOf { config with onUnresolved := mode } draws = schemaOf config draws := by
      funext models enums
      exact schemaOf_mode config draws mode models enums
    simp only [readSchema, same]
  next =>
    intro fault failed unresolved
    exact ((readSchema_fails config draws text).fault fault failed).of_unresolved unresolved
  next => exact (readSchema_fails config draws text).warnings
  next => exact ⟨names_of_collect collected, Model.joins_of_mapM_relationships _ _⟩

def replaced : List Char :=
  ("model A \x7b\n  id Int @id\n\x7d\nmodel B \x7b\n  a A\n  aId Int\n\x7d\n" ++
    "model A \x7b\n  key Int @id\n\x7d\n").toList

theorem readSchema_of_replaced_in_every_mode :
    (∀ mode, readSchema { (Config.default : Config Int) with onUnresolved := mode } (fun _ => 0)
        replaced = readSchema Config.default (fun _ => 0) replaced) ∧
      (readSchema (Config.default : Config Int) (fun _ => 0) replaced).outcome.toOption.map
        (·.relationships) = some [Relationship.link "B" "aId" "A" "key"] ∧
      (readSchema (Config.default : Config Int) (fun _ => 0) replaced).journal.notices =
        [redeclaration "A"] :=
  ⟨(readSchema_in_every_mode Config.default _ replaced).1, by decide +kernel, by decide +kernel⟩

end SchemaAtlas.Blocks
