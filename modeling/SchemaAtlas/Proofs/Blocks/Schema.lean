import SchemaAtlas.Proofs.Blocks.Model
import SchemaAtlas.Proofs.Blocks.Table
import SchemaAtlas.Proofs.Schema

/-!
Schemas written in blocks: what a reading that succeeds returns, and what the three modes for
unknown tables have in common.
-/

set_option autoImplicit false

namespace SchemaAtlas.Blocks

open Text

theorem collect_keeps (keywords : PrismaKeywords) (cleaned : List Char) :
    (collect keywords cleaned).Keeps (·.reportsDrop = false) Fault.Speaks (Distinct ·.1) := by
  unfold collect
  refine (noteMissingBlock_keeps cleaned "generator").bind fun _ _ => ?_
  refine (noteMissingBlock_keeps cleaned "datasource").bind fun _ _ => ?_
  have speaks (fault : Fault) : Stops fault → fault.Speaks := Stops.speaks
  refine .bind (.ofExcept ((readBlocks_stops _ (fun _ => .ok _) _).imp speaks) fun _ _ => trivial)
    fun enums _ => ?_
  refine .bind (.ofExcept ((readBlocks_stops _ Model.ofBlock?_stops _).imp speaks)
    fun _ _ => trivial) fun declared _ => ?_
  refine .bind (.foldlM declared (fun _ model _ distinct => addModel_keeps distinct model) []
    List.nodup_nil) fun models distinct => .pure distinct

variable {R : Type} [Coordinate R]

theorem schemaOf_keeps (config : Config R) (draws : Nat → R) {models : List Model}
    (distinct : Distinct models) (enums : List Enumeration) :
    (schemaOf config draws models enums).Keeps
      (·.Allowed config.onUnresolved) Fault.Speaks
      (fun schema => schema.isEmpty = false ∧ Reflects schema.relationships schema.tables ∧
        ∃ candidates,
          schema.Settled config.onUnresolved config.deduplicateRelationships candidates) := by
  unfold schemaOf
  split
  next => exact .fail (Fault.emptySchema_speaks _ _ (by simp))
  next held =>
    have related := Model.mapM_relationships_keeps config.prismaKeywords models
    refine (related.allowed _).bind fun found named => ?_
    refine (Relationship.settle_keeps _ _ _ _).bind fun settled ⟨same, strict⟩ => ?_
    have built := (readTables_keeps config draws (models.map (·.name)) (enums.map (·.name)) settled
      0 models).impFault fun _ => ColumnFails.speaks
    refine (built.allowed _).bind fun tables ⟨names, reflects⟩ => .pure ?_
    -- There is one table for each model, so what holds of the names holds of the ids.
    refine ⟨?_, reflects, found.flatten, ?_, named, ?_, ?_⟩
    · have bare : tables.isEmpty = models.isEmpty := by simpa using congrArg List.isEmpty names
      simpa [Schema.isEmpty, bare] using held
    · rw [Schema.tableIds, names]
      exact distinct
    · simp only [Schema.tableIds, names, same]
    · simpa only [Schema.tableIds, names] using strict

theorem readSchema_keeps (config : Config R) (draws : Nat → R) (text : List Char) :
    (readSchema config draws text).Keeps
      (·.Allowed config.onUnresolved) Fault.Speaks
      (fun schema => schema.isEmpty = false ∧ Reflects schema.relationships schema.tables ∧
        ∃ candidates,
          schema.Settled config.onUnresolved config.deduplicateRelationships candidates) := by
  unfold readSchema
  simp only
  split
  next => exact .fail fun _ => by simp [Fault.message, noDeclarations]
  next =>
    split
    next => exact .fail (Fault.structural_speaks _ _ (by simp))
    next =>
      have collected := collect_keeps config.prismaKeywords (stripComments text)
      refine (collected.allowed _).bind fun found distinct => ?_
      exact schemaOf_keeps config draws distinct found.2

theorem schemaOf_ignore (config : Config R) (draws : Nat → R) (models : List Model)
    (enums : List Enumeration) :
    schemaOf { config with onUnresolved := .ignore } draws models enums =
      (schemaOf { config with onUnresolved := .warn } draws models enums).without
        Warning.reportsDrop := by
  have same : readTables { config with onUnresolved := .ignore } =
      readTables { config with onUnresolved := .warn } := readTables_congr rfl rfl rfl
  simp only [schemaOf, same]
  split
  next => rfl
  next =>
    have related := Model.mapM_relationships_keeps config.prismaKeywords models
    refine Journaled.bind_eq_without related.without_eq_self.symm fun found => ?_
    refine Journaled.bind_eq_without (Relationship.settle_ignore _ _ _) fun settled => ?_
    have built := readTables_keeps { config with onUnresolved := .warn } draws
      (models.map (·.name)) (enums.map (·.name)) settled 0 models
    exact Journaled.bind_eq_without built.without_eq_self.symm fun _ => rfl

theorem readSchema_ignore (config : Config R) (draws : Nat → R) (text : List Char) :
    readSchema { config with onUnresolved := .ignore } draws text =
      (readSchema { config with onUnresolved := .warn } draws text).without
        Warning.reportsDrop := by
  unfold readSchema
  simp only
  split
  next => rfl
  next =>
    split
    next => rfl
    next =>
      exact Journaled.bind_eq_without (collect_keeps _ _).without_eq_self.symm
        fun (models, enums) => schemaOf_ignore config draws models enums

/-- A schema in which each link is kept once, and in which columns reference what is left. -/
def mergeLinks (schema : Schema R) : Schema R :=
  { schema.mergeLinks with
    tables := schema.tables.map (relink (Relationship.deduplicate schema.relationships)) }

theorem schemaOf_once (config : Config R) (draws : Nat → R) (models : List Model)
    (enums : List Enumeration) :
    schemaOf { config with deduplicateRelationships := true } draws models enums =
      mergeLinks <$>
        schemaOf { config with deduplicateRelationships := false } draws models enums := by
  have same : readTables { config with deduplicateRelationships := true } =
      readTables { config with deduplicateRelationships := false } := readTables_congr rfl rfl rfl
  simp only [schemaOf, same]
  split
  next => rfl
  next =>
    simp only [map_bind, Relationship.settle_once, bind_map_left]
    congr 1
    funext found
    congr 1
    funext kept
    rw [readTables_relink _ _ _ _ kept, bind_map_left]
    simp [mergeLinks, Schema.mergeLinks]

theorem readSchema_once (config : Config R) (draws : Nat → R) (text : List Char) :
    readSchema { config with deduplicateRelationships := true } draws text =
      mergeLinks <$>
        readSchema { config with deduplicateRelationships := false } draws text := by
  unfold readSchema
  simp only
  split
  next => rfl
  next =>
    split
    next => rfl
    next =>
      rw [map_bind]
      congr 1
      funext (models, enums)
      exact schemaOf_once config draws models enums

theorem readSchema_fail_or (config : Config R) (draws : Nat → R) (text : List Char) :
    Journaled.FailsOr (·.isUnresolvedReference = true)
      (readSchema { config with onUnresolved := .fail } draws text)
      (readSchema { config with onUnresolved := .warn } draws text) := by
  have same : readTables { config with onUnresolved := .fail } =
      readTables { config with onUnresolved := .warn } := readTables_congr rfl rfl rfl
  simp only [readSchema, schemaOf, same]
  split
  next => exact .refl _
  next =>
    split
    next => exact .refl _
    next =>
      refine .bind (.refl _) fun (models, enums) => ?_
      split
      next => exact .refl _
      next =>
        refine .bind (.refl _) fun found => ?_
        exact (Relationship.settle_fail_or _ _ _ _).bind fun _ => .refl _

end SchemaAtlas.Blocks
