import SchemaAtlas.Extraction.Extract
import SchemaAtlas.Proofs.Alike
import SchemaAtlas.Proofs.Registry

/-!
The random numbers behind the positions of tables: they move tables sideways, and nothing else that
an extraction returns depends on them.
-/

set_option autoImplicit false

namespace SchemaAtlas

open Journaled

variable {R : Type} [Coordinate R]

def Position.alignLeft (position : Position R) : Position R :=
  { position with x := Layout.margin }

def Table.alignLeft (table : Table R) : Table R :=
  { table with position := table.position.alignLeft }

def Schema.alignLeft (schema : Schema R) : Schema R :=
  { schema with tables := schema.tables.map Table.alignLeft }

theorem Relationship.ofReferences_alignLeft (tables : List (Table R)) :
    ofReferences (tables.map Table.alignLeft) = ofReferences tables := by
  rw [ofReferences, ofReferences, List.flatMap_map]
  rfl

namespace Registry

def alignLeft (registry : Registry R) : Registry R :=
  { registry with tables := registry.tables.map Table.alignLeft }

theorem alignLeft_eq_iff {registry other : Registry R} :
    registry.alignLeft = other.alignLeft ↔
      registry.tables.map Table.alignLeft = other.tables.map Table.alignLeft ∧
        registry.pending = other.pending := by
  rw [alignLeft, alignLeft, Registry.mk.injEq]

@[simp] theorem tableIds_alignLeft (registry : Registry R) :
    registry.alignLeft.tableIds = registry.tableIds := by
  rw [tableIds, tableIds, alignLeft, List.map_map]
  rfl

@[simp] theorem hasTable_alignLeft (registry : Registry R) (id : String) :
    registry.alignLeft.hasTable id = registry.hasTable id := by
  rw [hasTable, hasTable, alignLeft, List.any_map]
  rfl

@[simp] theorem size_alignLeft (registry : Registry R) :
    registry.alignLeft.size = registry.size :=
  List.length_map ..

theorem put_alignLeft (tables : List (Table R)) (table : Table R) :
    (put tables table).map Table.alignLeft =
      put (tables.map Table.alignLeft) table.alignLeft := by
  rw [put_eq, put_eq]
  exact Keyed.map_put (f := Table.alignLeft) (fun _ => rfl) tables table

theorem merged_alignLeft (registry : Registry R) :
    registry.alignLeft.merged = registry.merged.map Table.alignLeft := by
  rw [merged, merged, alignLeft, List.map_map, List.map_map]
  rfl

/-- What is linked and decided by the finished tables is the same with all of them on the margin. -/
theorem merged_level {registry other : Registry R} (level : registry.alignLeft = other.alignLeft) :
    registry.merged.map Table.alignLeft = other.merged.map Table.alignLeft ∧
      registry.tableIds = other.tableIds ∧
      Relationship.ofReferences registry.merged = Relationship.ofReferences other.merged := by
  have tables : registry.merged.map Table.alignLeft = other.merged.map Table.alignLeft := by
    rw [← merged_alignLeft, level, merged_alignLeft]
  refine ⟨tables, ?_, ?_⟩
  · rw [← tableIds_alignLeft, level, tableIds_alignLeft]
  · rw [← Relationship.ofReferences_alignLeft, tables, Relationship.ofReferences_alignLeft]

/-- Two registries and the numbers drawn for each, which differ in how far tables stand to the side
only. -/
def Level (state other : Registry R × Nat) : Prop :=
  state.1.alignLeft = other.1.alignLeft ∧ state.2 = other.2

theorem Level.size {state other : Registry R × Nat} (level : Level state other) :
    state.1.size = other.1.size := by
  rw [← size_alignLeft, level.1, size_alignLeft]

theorem level_empty : Level (({}, 0) : Registry R × Nat) ({}, 0) := ⟨rfl, rfl⟩

theorem register_alike {registry other : Registry R} {table twin : Table R}
    (level : registry.alignLeft = other.alignLeft) (same : table.alignLeft = twin.alignLeft) :
    Alike (fun first second => first.alignLeft = second.alignLeft) (registry.register table)
      (other.register twin) := by
  have id : table.id = twin.id := congrArg (·.id) same
  have known : registry.hasTable table.id = other.hasTable twin.id := by
    rw [← hasTable_alignLeft, level, hasTable_alignLeft, id]
  obtain ⟨tables, pending⟩ := alignLeft_eq_iff.mp level
  have entered : alignLeft { registry with tables := put registry.tables table } =
      alignLeft { other with tables := put other.tables twin } :=
    alignLeft_eq_iff.mpr ⟨by rw [put_alignLeft, put_alignLeft, tables, same], pending⟩
  rw [register, register, known, id]
  split
  next => exact .after _ fun _ => .pure entered
  next => exact .pure entered

theorem enter_alike {registry other : Registry R} {drawn drawn' : Nat}
    (level : Level (registry, drawn) (other, drawn')) {table twin : Table R}
    (same : table.alignLeft = twin.alignLeft) :
    -- The steps that a reader with a registry ends a table with.
    Alike Level
      (do
        Journaled.record { draws := 1 }
        let next ← registry.register table
        return (next, drawn + 1))
      (do
        Journaled.record { draws := 1 }
        let next ← other.register twin
        return (next, drawn' + 1)) := by
  obtain ⟨level, counted⟩ := level
  refine .after _ fun _ => ?_
  exact (register_alike level same).bind fun _ _ next => .pure ⟨next, congrArg (· + 1) counted⟩

theorem attach_alike {registry other : Registry R} (level : registry.alignLeft = other.alignLeft)
    (id : String) (index : Index) :
    Alike (fun first second => first.2.alignLeft = second.2.alignLeft) (registry.attach id index)
      (other.attach id index) := by
  have known : registry.hasTable id = other.hasTable id := by
    rw [← hasTable_alignLeft, level, hasTable_alignLeft]
  obtain ⟨tables, pending⟩ := alignLeft_eq_iff.mp level
  rw [attach, attach, known]
  split
  next => exact .pure (alignLeft_eq_iff.mpr ⟨tables, congrArg (· ++ [(id, index)]) pending⟩)
  next => exact .after _ fun _ => .pure level

end Registry

namespace Fluent

open Script

variable (config : Config R) (draws draws' : Nat → R)

theorem addTable_alike (surroundings : Surroundings) {state other : Registry R × Nat}
    (level : Registry.Level state other) (declaration : Declaration) :
    Alike Registry.Level (addTable config draws surroundings state declaration)
      (addTable config draws' surroundings other declaration) := by
  obtain ⟨registry, drawn⟩ := state
  obtain ⟨twin, drawn'⟩ := other
  unfold addTable
  simp only
  cases declaration.init.bind (tableArguments? config.drizzleKeywords surroundings.creators) with
  | none => exact .pure level
  | some arguments =>
    simp only
    cases tableParts config.drizzleKeywords declaration.name arguments with
    | error reason => exact .after _ fun _ => .pure level
    | ok parts =>
      refine .after _ fun columns => Registry.enter_alike level ?_
      rw [show registry.size = twin.size from level.size]
      rfl

theorem addIndex_alike (keywords : DrizzleKeywords) {registry other : Registry R}
    (level : registry.alignLeft = other.alignLeft) (declaration : Declaration) :
    Alike (fun first second => first.alignLeft = second.alignLeft)
      (addIndex keywords registry declaration) (addIndex keywords other declaration) := by
  unfold addIndex
  split
  next => exact .pure level
  next => exact .after _ fun _ => .pure level
  next => exact (Registry.attach_alike level _ _).bind fun _ _ next => .pure next

theorem schemaOf_alike (script : Module) :
    Alike (fun schema other => schema.alignLeft = other.alignLeft) (schemaOf config draws script)
      (schemaOf config draws' script) := by
  have collected (surroundings : Surroundings) :
      Alike (fun registry other => registry.alignLeft = other.alignLeft)
        (collect config draws surroundings script) (collect config draws' surroundings script) := by
    have tables := Alike.foldlM script.exported
      (fun _ _ declaration level =>
        addTable_alike config draws draws' surroundings level declaration) Registry.level_empty
    refine tables.bind fun _ _ level => ?_
    exact .foldlM script.declarations
      (fun _ _ declaration level => addIndex_alike config.drizzleKeywords level declaration) level.1
  refine (collected _).bind fun registry other level => ?_
  obtain ⟨tables, ids, references⟩ := Registry.merged_level level
  have empty : registry.merged.isEmpty = other.merged.isEmpty := by
    rw [← List.isEmpty_map, tables, List.isEmpty_map]
  simp only [empty, ids, references]
  split
  next => exact .fail _
  next =>
    refine .after _ fun settled => .pure ?_
    simp only [Schema.alignLeft, tables]

theorem readSchema_alike (text : List Char) :
    Alike (fun schema other => schema.alignLeft = other.alignLeft) (readSchema config draws text)
      (readSchema config draws' text) :=
  .after _ fun script => schemaOf_alike config draws draws' script

namespace Scan

theorem addTable_alike {state other : Registry R × Nat} (level : Registry.Level state other)
    (opening : Opening) :
    Alike Registry.Level (addTable config draws state opening)
      (addTable config draws' other opening) := by
  obtain ⟨registry, drawn⟩ := state
  obtain ⟨twin, drawn'⟩ := other
  unfold addTable
  simp only
  split
  next => exact .pure level
  next =>
    refine .after _ fun columns => Registry.enter_alike level ?_
    rw [show registry.size = twin.size from level.size]
    rfl

theorem readSchema_alike (text : List Char) :
    Alike (fun schema other => schema.alignLeft = other.alignLeft) (readSchema config draws text)
      (readSchema config draws' text) := by
  refine .mapFault _ ?_
  have tables := Alike.foldlM (Text.allMatches (fun _ => opening?) (Text.stripComments text))
    (fun _ _ opening level => addTable_alike config draws draws' level opening)
    Registry.level_empty
  refine tables.bind fun state other level => ?_
  obtain ⟨tables, ids, references⟩ := Registry.merged_level level.1
  simp only [ids, references]
  refine .after _ fun settled => .pure ?_
  simp only [Schema.alignLeft, tables]

end Scan

end Fluent

namespace Blocks

variable (config : Config R) (draws draws' : Nat → R)

theorem readTables_alike (models enums : List String) (relationships : List Relationship)
    (place : Nat) (rest : List Model) :
    Alike (fun tables others => tables.map Table.alignLeft = others.map Table.alignLeft)
      (readTables config draws models enums relationships place rest)
      (readTables config draws' models enums relationships place rest) := by
  induction rest generalizing place with
  | nil => exact .pure rfl
  | cons model rest ih =>
    have first : Alike (fun table other => table.alignLeft = other.alignLeft)
        (readTable config draws models enums relationships place model)
        (readTable config draws' models enums relationships place model) :=
      .after _ fun columns => .after _ fun _ => .pure rfl
    refine first.bind fun table other same => ?_
    refine (ih (place + 1)).bind fun tables others level => .pure ?_
    rw [List.map_cons, List.map_cons, same, level]

theorem readSchema_alike (text : List Char) :
    Alike (fun schema other => schema.alignLeft = other.alignLeft) (readSchema config draws text)
      (readSchema config draws' text) := by
  unfold readSchema
  simp only
  split
  next => exact .fail _
  next =>
    split
    next => exact .fail _
    next =>
      refine .after _ fun found => ?_
      unfold schemaOf
      split
      next => exact .fail _
      next =>
        refine .after _ fun links => .after _ fun settled => ?_
        refine (readTables_alike config draws draws' _ _ _ 0 found.1).bind fun _ _ level => .pure ?_
        simp only [Schema.alignLeft, level]

namespace Scan

theorem addModel_alike {state other : Registry R × Nat} (level : Registry.Level state other)
    (model : List Char × List Char) :
    Alike Registry.Level (addModel config draws state model)
      (addModel config draws' other model) := by
  obtain ⟨registry, drawn⟩ := state
  obtain ⟨twin, drawn'⟩ := other
  unfold addModel
  simp only
  refine .after _ fun columns => ?_
  split
  next => exact .after _ fun _ => .pure level
  next =>
    refine Registry.enter_alike level ?_
    rw [show registry.size = twin.size from level.size]
    rfl

theorem readSchema_alike (text : List Char) :
    Alike (fun schema other => schema.alignLeft = other.alignLeft) (readSchema config draws text)
      (readSchema config draws' text) := by
  refine .mapFault _ ?_
  have tables := Alike.foldlM
    (Text.allMatches (flatBlock? ['m', 'o', 'd', 'e', 'l']) (Text.stripComments text))
    (fun _ _ model level => addModel_alike config draws draws' level model)
    Registry.level_empty
  refine tables.bind fun state other level => .pure ?_
  simp only [Schema.alignLeft, (Registry.merged_level level.1).1]

end Scan

end Blocks

def Outcome.alignLeft : Outcome R → Outcome R
  | .success schema => .success schema.alignLeft
  | .failure error error_ne_empty => .failure error error_ne_empty

def ExtractionResult.alignLeft (result : ExtractionResult R) : ExtractionResult R :=
  { result with outcome := result.outcome.alignLeft }

namespace Extraction

/-- The extraction with all tables on the left margin, each at its height. -/
def alignLeft (extraction : Extraction R) : Extraction R :=
  { extraction with returned := extraction.returned.map ExtractionResult.alignLeft }

theorem success_alignLeft (dialect : Dialect) (tier : Tier) (journal : Journal)
    (schema : Schema R) :
    (success dialect tier journal schema).alignLeft =
      success dialect tier journal schema.alignLeft := rfl

@[simp] theorem isEmpty_alignLeft (schema : Schema R) :
    schema.alignLeft.isEmpty = schema.isEmpty := by
  rw [Schema.isEmpty, Schema.isEmpty, Schema.alignLeft, List.isEmpty_map]

variable (config : Config R) (draws draws' : Nat → R)

theorem readStructurally_alike (dialect : Dialect) (text : List Char) :
    Alike (fun schema other => schema.alignLeft = other.alignLeft)
      (readStructurally config draws dialect text) (readStructurally config draws' dialect text) := by
  cases dialect with
  | drizzle => exact Fluent.readSchema_alike config draws draws' text
  | prisma | unknown => exact Blocks.readSchema_alike config draws draws' text

theorem readCoarsely_alike (dialect : Dialect) (text : List Char) :
    Alike (fun schema other => schema.alignLeft = other.alignLeft)
      (readCoarsely config draws dialect text) (readCoarsely config draws' dialect text) := by
  cases dialect with
  | drizzle => exact Fluent.Scan.readSchema_alike config draws draws' text
  | prisma | unknown => exact Blocks.Scan.readSchema_alike config draws draws' text

theorem retry_alignLeft (dialect : Dialect) (text : List Char) (journal : Journal)
    (fault : Fault) :
    (retry config draws dialect text journal fault).alignLeft =
      (retry config draws' dialect text journal fault).alignLeft := by
  -- The second reading goes on with what the first one left of either source.
  obtain ⟨said, ends⟩ := readCoarsely_alike config (fun n => draws (journal.draws + n))
    (fun n => draws' (journal.draws + n)) dialect text
  simp only [retry, said]
  generalize (readCoarsely config (fun n => draws (journal.draws + n)) dialect text).outcome = first
    at ends ⊢
  generalize (readCoarsely config (fun n => draws' (journal.draws + n)) dialect text).outcome =
    second at ends ⊢
  cases ends with
  | fault fault => rfl
  | @value schema other level =>
    have empty : schema.isEmpty = other.isEmpty := by
      rw [← isEmpty_alignLeft, level, isEmpty_alignLeft]
    simp only [empty]
    split
    next => rfl
    next => rw [success_alignLeft, success_alignLeft, level]

theorem ofDialect_alignLeft (dialect : Dialect) (text cleaned : List Char) (before : Journal) :
    (ofDialect config draws dialect text cleaned before).alignLeft =
      (ofDialect config draws' dialect text cleaned before).alignLeft := by
  obtain ⟨said, ends⟩ := readStructurally_alike config draws draws' dialect text
  simp only [ofDialect, said]
  split
  next =>
    generalize (readStructurally config draws dialect text).outcome = first at ends ⊢
    generalize (readStructurally config draws' dialect text).outcome = second at ends ⊢
    cases ends with
    | fault fault =>
      simp only
      split
      next => rfl
      next => rfl
      next => exact retry_alignLeft config draws draws' _ _ _ _
    | value level => simp only [success_alignLeft, level]
  next => rfl

theorem extract_alignLeft (text : Option (List Char)) (dialect : Option String) :
    (extract config draws text dialect).alignLeft =
      (extract config draws' text dialect).alignLeft := by
  unfold extract
  split
  next => rfl
  next =>
    simp only
    split
    next => rfl
    next => exact ofDialect_alignLeft config draws draws' _ _ _ _

end Extraction

/-- Whatever numbers are drawn, an extraction returns the same up to how far tables are shifted to
the side. So does each extraction of a batch, in which one goes on with the numbers that the one
before it left. -/
theorem draws_shift_tables_only (config : Config R) (draws draws' : Nat → R)
    (dialect : Option String) :
    (∀ text, (extract config draws text dialect).alignLeft =
      (extract config draws' text dialect).alignLeft) ∧
    ∀ texts, (extractAll config draws texts dialect).map Extraction.alignLeft =
      texts.map fun text => (extract config draws' text dialect).alignLeft := by
  refine ⟨fun text => Extraction.extract_alignLeft config draws draws' text dialect, fun texts => ?_⟩
  -- What is left of the numbers is general: each text begins further on in them.
  induction texts generalizing draws with
  | nil => rfl
  | cons text texts ih =>
    rw [extractAll, List.map_cons, List.map_cons, ih,
      Extraction.extract_alignLeft config draws draws' text dialect]

end SchemaAtlas
