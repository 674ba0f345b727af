import SchemaAtlas.Extraction.Extract
import SchemaAtlas.Proofs.Blocks.Scan
import SchemaAtlas.Proofs.Blocks.Schema
import SchemaAtlas.Proofs.Fluent.Scan
import SchemaAtlas.Proofs.Fluent.Schema

/-!
The four readers under one contract: whichever of them made a schema, its tables, references and
relationships agree.
-/

set_option autoImplicit false

namespace SchemaAtlas

variable {R : Type}

/-- What can be said of every schema that a reader of the dialect returns. Of a script the
relationships follow the references, of blocks the references follow the relationships. -/
structure Schema.Consistent (schema : Schema R) (dialect : Dialect) (mode : ErrorMode) : Prop where
  distinct : schema.tableIds.Nodup
  joins : ∀ relationship ∈ schema.relationships, relationship.Joins schema.tableIds
  named : ∀ relationship ∈ schema.relationships, relationship.IsNamed
  linked : ∀ table ∈ schema.tables, ∀ column ∈ table.columns, ∀ reference,
    column.references = some reference → reference.table ∈ schema.tableIds →
      ∃ relationship ∈ schema.relationships,
        relationship.linkKey = ⟨table.id, column.name, reference.table, reference.column⟩
  strict : mode = .fail → ∀ table ∈ schema.tables, ∀ column ∈ table.columns, ∀ reference,
    column.references = some reference → reference.table ∈ schema.tableIds
  reflects : dialect ≠ .drizzle → Blocks.Reflects schema.relationships schema.tables

namespace Schema

variable {schema : Schema R} {mode : ErrorMode}

theorem table_mem_tableIds {table : Table R} (member : table ∈ schema.tables) :
    table.id ∈ schema.tableIds :=
  List.mem_map.mpr ⟨table, member, rfl⟩

theorem Settled.consistent {once : Bool} {candidates : List Relationship}
    (settled : schema.Settled mode once candidates)
    (covered : Relationship.ofReferences schema.tables ⊆ candidates) :
    schema.Consistent .drizzle mode where
  distinct := settled.distinct
  joins _ := settled.joins
  named _ := settled.isNamed
  linked table present column inside reference referenced known := by
    -- The relationship made from the reference joins two tables, so its link is kept.
    have member := Relationship.link_mem_ofReferences present inside referenced
    exact settled.linked (covered member) ⟨table_mem_tableIds present, known⟩
  strict failing table present column inside reference referenced := by
    have member := Relationship.link_mem_ofReferences present inside referenced
    exact (settled.strict failing _ (covered member)).2
  reflects other := absurd rfl other

theorem inside_of_reflects (reflects : Blocks.Reflects schema.relationships schema.tables)
    (joins : ∀ relationship ∈ schema.relationships, relationship.Joins schema.tableIds)
    {table : Table R} (present : table ∈ schema.tables) {column : Column}
    (inside : column ∈ table.columns) {reference : ColumnReference}
    (referenced : column.references = some reference) :
    reference.table ∈ schema.tableIds ∧ ∃ relationship ∈ schema.relationships,
      relationship.linkKey = ⟨table.id, column.name, reference.table, reference.column⟩ := by
  rw [reflects table present column inside] at referenced
  obtain ⟨relationship, member, key⟩ := Blocks.Model.reference?_eq_some referenced
  have target : relationship.target = reference.table := congrArg LinkKey.target key
  exact ⟨target ▸ (joins relationship member).2, relationship, member, key⟩

theorem Settled.consistent_of_reflects {once : Bool} {candidates : List Relationship}
    (settled : schema.Settled mode once candidates)
    (reflects : Blocks.Reflects schema.relationships schema.tables) (dialect : Dialect) :
    schema.Consistent dialect mode where
  distinct := settled.distinct
  joins _ := settled.joins
  named _ := settled.isNamed
  linked _ present _ inside _ referenced _ :=
    (inside_of_reflects reflects (fun _ => settled.joins) present inside referenced).2
  strict _ _ present _ inside _ referenced :=
    (inside_of_reflects reflects (fun _ => settled.joins) present inside referenced).1
  reflects _ := reflects

end Schema

namespace Extraction

variable [Coordinate R]

theorem readStructurally_keeps (config : Config R) (draws : Nat → R) (dialect : Dialect)
    (text : List Char) :
    (readStructurally config draws dialect text).Keeps
      (·.Allowed config.onUnresolved) Fault.Speaks
      (fun schema => schema.isEmpty = false ∧ schema.Consistent dialect config.onUnresolved) := by
  have blocks (other : Dialect) := (Blocks.readSchema_keeps config draws text).imp
    fun _ ⟨held, reflects, _, settled⟩ =>
      And.intro held (settled.consistent_of_reflects reflects other)
  cases dialect with
  | drizzle =>
    exact (Fluent.readSchema_keeps config draws text).imp fun _ ⟨held, _, settled⟩ =>
      ⟨held, settled.consistent (List.subset_append_right _ _)⟩
  | prisma | unknown => exact blocks _

theorem readCoarsely_keeps (config : Config R) (draws : Nat → R) (dialect : Dialect)
    (text : List Char) :
    (readCoarsely config draws dialect text).Keeps
      (·.Allowed config.onUnresolved)
      (fun fault => fault.isExtractionFault = true ∧ fault.Speaks)
      (·.Consistent dialect config.onUnresolved) := by
  have wrapped (fault : Fault) : (∃ cause, Blocks.ColumnFails config.prismaTypes cause ∧
      fault = cause.inFallback Dialect.prisma.displayName) →
        fault.isExtractionFault = true ∧ fault.Speaks := by
    rintro ⟨cause, fails, rfl⟩
    exact ⟨Fault.isExtractionFault_inFallback _ _,
      fun _ => Fault.inFallback_message_ne_empty _ fails.speaks⟩
  have blocks (other : Dialect) := (((Blocks.Scan.readSchema_keeps config draws text).allowed
    config.onUnresolved).impFault wrapped).imp fun _ ⟨settled, reflects⟩ =>
      settled.consistent_of_reflects reflects other
  cases dialect with
  | drizzle =>
    exact (Fluent.Scan.readSchema_keeps config draws text).imp fun _ settled =>
      settled.consistent (List.Subset.refl _)
  | prisma | unknown => exact blocks _

theorem readStructurally_ignore (config : Config R) (draws : Nat → R) (dialect : Dialect)
    (text : List Char) :
    readStructurally { config with onUnresolved := .ignore } draws dialect text =
      (readStructurally { config with onUnresolved := .warn } draws dialect text).without
        Warning.reportsDrop := by
  cases dialect with
  | drizzle => exact Fluent.readSchema_ignore config draws text
  | prisma | unknown => exact Blocks.readSchema_ignore config draws text

theorem readCoarsely_ignore (config : Config R) (draws : Nat → R) (dialect : Dialect)
    (text : List Char) :
    readCoarsely { config with onUnresolved := .ignore } draws dialect text =
      (readCoarsely { config with onUnresolved := .warn } draws dialect text).without
        Warning.reportsDrop := by
  -- The coarse reader of blocks finds no relationships and never asks for the mode.
  have same : Blocks.Scan.readSchema { config with onUnresolved := .ignore } =
      Blocks.Scan.readSchema { config with onUnresolved := .warn } :=
    Blocks.Scan.readSchema_congr rfl rfl
  cases dialect with
  | drizzle => exact Fluent.Scan.readSchema_ignore config draws text
  | prisma | unknown =>
    simp only [readCoarsely, same]
    exact (Blocks.Scan.readSchema_keeps _ draws text).without_eq_self.symm

theorem readStructurally_fail_or (config : Config R) (draws : Nat → R) (dialect : Dialect)
    (text : List Char) :
    Journaled.FailsOr (·.isUnresolvedReference = true)
      (readStructurally { config with onUnresolved := .fail } draws dialect text)
      (readStructurally { config with onUnresolved := .warn } draws dialect text) := by
  cases dialect with
  | drizzle => exact Fluent.readSchema_fail_or config draws text
  | prisma | unknown => exact Blocks.readSchema_fail_or config draws text

theorem readCoarsely_fail_or (config : Config R) (draws : Nat → R) (dialect : Dialect)
    (text : List Char) :
    Journaled.FailsOr (·.isUnresolvedReference = true)
      (readCoarsely { config with onUnresolved := .fail } draws dialect text)
      (readCoarsely { config with onUnresolved := .warn } draws dialect text) := by
  have same : Blocks.Scan.readSchema { config with onUnresolved := .fail } =
      Blocks.Scan.readSchema { config with onUnresolved := .warn } :=
    Blocks.Scan.readSchema_congr rfl rfl
  cases dialect with
  | drizzle => exact Fluent.Scan.readSchema_fail_or config draws text
  | prisma | unknown =>
    simp only [readCoarsely, same]
    exact .refl _

end Extraction

end SchemaAtlas
