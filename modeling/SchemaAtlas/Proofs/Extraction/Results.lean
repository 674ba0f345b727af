import SchemaAtlas.Proofs.Extraction.Ends
import SchemaAtlas.Proofs.Graph

/-!
What holds of every result of an extraction: it is there, it is either a schema or an error, and
the tables, references and relationships of its schema fit together.
-/

set_option autoImplicit false

namespace SchemaAtlas.Extraction

variable {R : Type}

theorem success_returned (dialect : Dialect) (tier : Tier) (journal : Journal) (schema : Schema R) :
    (success dialect tier journal schema).returned = .ok
      { outcome := .success schema, dialect, tier := some tier, warnings := journal.warnings } :=
  rfl

theorem failure_returned (dialect : Dialect) (journal : Journal) {message : String}
    (said : message ≠ "") :
    (failure dialect journal message : Extraction R).returned = .ok
      { outcome := .failure message said, dialect, warnings := journal.warnings } := by
  simp [failure, ExtractionResult.ofParts?, said]

@[simp] theorem failure_schema? (dialect : Dialect) (journal : Journal) (message : String) :
    (failure dialect journal message : Extraction R).result.schema? = none := by
  by_cases said : message = ""
  · simp [failure, result, ExtractionResult.ofParts?, said, ExtractionResult.schema?]
  · simp [result, failure_returned dialect journal said, ExtractionResult.schema?]

variable [Coordinate R] {config : Config R} {draws : Nat → R} {text : List Char}
  {extraction : Extraction R} {schema : Schema R}

theorem Ends.returned (ends : Ends config draws text extraction) :
    extraction.returned = .ok extraction.result := by
  cases ends with
  | failed dialect journal message said => rw [result, failure_returned dialect journal said]
  | read | reread => rfl

theorem Ends.found (ends : Ends config draws text extraction)
    (held : extraction.result.schema? = some schema) :
    schema.Consistent extraction.result.dialect config.onUnresolved ∧
      (extraction.result.tier = some .structural → schema.isEmpty = false) ∧
      ∀ warning ∈ extraction.result.warnings, warning.Allowed config.onUnresolved := by
  cases ends with
  | failed => simp at held
  | read dialect before found read allowed =>
    cases held
    obtain ⟨full, consistent⟩ := (readStructurally_keeps config draws dialect text).value _ read
    exact ⟨consistent, fun _ => full, allowed⟩
  | reread dialect before drawn counted found read allowed =>
    cases held
    have consistent := (readCoarsely_keeps config _ dialect text).value _ read
    exact ⟨consistent, nofun, allowed⟩

end Extraction

variable {R : Type} [Coordinate R]

theorem extract_returned (config : Config R) (draws : Nat → R) (text : Option (List Char))
    (dialect : Option String) :
    (extract config draws text dialect).returned = .ok (extract config draws text dialect).result :=
  (Extraction.extract_ends config draws text dialect).returned

/-- Whatever is handed in, there is a result, and it is of one piece. -/
theorem extract_always_returns (config : Config R) (draws : Nat → R) (text : Option (List Char))
    (dialect : Option String) :
    ∃ result, (extract config draws text dialect).returned = .ok result ∧
      (result.isSuccess = true ↔ result.schema?.isSome = true) ∧
      (result.isSuccess = true ↔ result.error? = none) ∧
      (result.isSuccess = true ↔ result.tier.isSome = true) ∧
      (result.isSuccess = false → ∃ error, result.error? = some error ∧ error ≠ "") := by
  have ends := Extraction.extract_ends config draws text dialect
  generalize extract config draws text dialect = extraction at ends ⊢
  cases ends with
  | failed dialect journal message said =>
    refine ⟨_, Extraction.failure_returned dialect journal said, ?_⟩
    simp [ExtractionResult.isSuccess, ExtractionResult.schema?, ExtractionResult.error?, said]
  | read | reread =>
    refine ⟨_, Extraction.success_returned _ _ _ _, ?_⟩
    simp [ExtractionResult.isSuccess, ExtractionResult.schema?, ExtractionResult.error?]

/-- Every reader closes its schema: no id is used twice, and no relationship leaves the tables. -/
theorem extracted_schema_closed (config : Config R) (draws : Nat → R) (text : Option (List Char))
    (dialect : Option String) {result : ExtractionResult R} {schema : Schema R}
    (returned : (extract config draws text dialect).returned = .ok result)
    (held : result.schema? = some schema) :
    schema.tableIds.Nodup ∧
      (∀ relationship ∈ schema.relationships,
        relationship.source ∈ schema.tableIds ∧ relationship.target ∈ schema.tableIds ∧
          relationship.id = Relationship.idOf relationship.source relationship.sourceColumn
            relationship.target) ∧
      (∃ graph, result.graph? = .ok graph ∧ graph.dangling = []) ∧
      (result.tier = some .structural → schema.tables ≠ [] ∨ schema.enums ≠ []) := by
  have ends := Extraction.extract_ends config draws text dialect
  cases returned.symm.trans ends.returned
  obtain ⟨consistent, structural, -⟩ := ends.found held
  refine ⟨consistent.distinct, ?_, ⟨Graph.ofSchema schema, ?_, ?_⟩, ?_⟩
  · intro relationship member
    obtain ⟨source, target⟩ := consistent.joins relationship member
    exact ⟨source, target, consistent.named relationship member⟩
  · unfold ExtractionResult.schema? at held
    unfold ExtractionResult.graph?
    split at held
    next => cases held; simp
    next => cases held
  · exact Graph.dangling_eq_nil consistent.joins
  · intro tier
    have full := structural tier
    rw [Schema.isEmpty, Bool.and_eq_false_iff] at full
    simpa using full

def staff : List Char :=
  ("model User \x7b\n  id Int @id\n\x7d\n" ++
    "model User \x7b\n  id Int @id\n  boss User\n  bossId Int\n\x7d").toList

theorem staff_schema : ∃ schema,
    (extract (Config.default : Config Int) (fun _ => 0) (some staff) none).result.schema? =
        some schema ∧
      schema.tableIds = ["User"] ∧
      schema.relationships = [Relationship.link "User" "bossId" "User" "id"] := by
  have read : (extract (Config.default : Config Int) (fun _ => 0) (some staff)
      none).result.schema?.map (fun schema => (schema.tableIds, schema.relationships)) =
        some (["User"], [Relationship.link "User" "bossId" "User" "id"]) := by
    decide +kernel
  obtain ⟨schema, held, same⟩ := Option.map_eq_some_iff.mp read
  exact ⟨schema, held, congrArg Prod.fst same, congrArg Prod.snd same⟩

theorem extracted_schema_closed_staff : ∃ result schema,
    (extract (Config.default : Config Int) (fun _ => 0) (some staff) none).returned = .ok result ∧
      result.schema? = some schema ∧ schema.tableIds = ["User"] ∧ schema.tableIds.Nodup ∧
      ∃ graph, result.graph? = .ok graph ∧ graph.dangling = [] := by
  obtain ⟨schema, held, ids, -⟩ := staff_schema
  have returned := extract_returned (Config.default : Config Int) (fun _ => 0) (some staff) none
  obtain ⟨distinct, -, graph, -⟩ := extracted_schema_closed _ _ _ _ returned held
  exact ⟨_, schema, returned, held, ids, distinct, graph⟩

/-- References of columns and relationships agree. In blocks, where a column gets its reference from
a relationship, there is none of either without the other. -/
theorem references_match_relationships (config : Config R) (draws : Nat → R)
    (text : Option (List Char)) (dialect : Option String) {result : ExtractionResult R}
    {schema : Schema R}
    (returned : (extract config draws text dialect).returned = .ok result)
    (held : result.schema? = some schema) :
    (∀ table ∈ schema.tables, ∀ column ∈ table.columns, ∀ reference,
      column.references = some reference → reference.table ∈ schema.tableIds →
        ∃ relationship ∈ schema.relationships,
          relationship.linkKey = ⟨table.id, column.name, reference.table, reference.column⟩) ∧
    (result.dialect = .prisma →
      (∀ table ∈ schema.tables, ∀ column ∈ table.columns, ∀ reference,
        column.references = some reference → reference.table ∈ schema.tableIds) ∧
      (∀ relationship ∈ schema.relationships, ∀ table ∈ schema.tables,
        table.id = relationship.source → ∀ column ∈ table.columns,
          column.name = relationship.sourceColumn → column.references.isSome = true)) := by
  have ends := Extraction.extract_ends config draws text dialect
  cases returned.symm.trans ends.returned
  obtain ⟨consistent, -, -⟩ := ends.found held
  refine ⟨consistent.linked, fun prisma => ?_⟩
  have reflects := consistent.reflects (by simp [prisma])
  constructor
  next =>
    intro table present column inside reference referenced
    exact (Schema.inside_of_reflects reflects consistent.joins present inside referenced).1
  next =>
    intro relationship member table present owner column inside named
    rw [reflects table present column inside, owner, named]
    exact Blocks.Model.reference?_isSome member

theorem references_match_relationships_staff : ∃ result schema,
    (extract (Config.default : Config Int) (fun _ => 0) (some staff) none).returned = .ok result ∧
      result.schema? = some schema ∧ result.dialect = .prisma ∧
      schema.relationships = [Relationship.link "User" "bossId" "User" "id"] ∧
      ∀ table ∈ schema.tables, table.id = "User" → ∀ column ∈ table.columns,
        column.name = "bossId" → column.references.isSome = true := by
  obtain ⟨schema, held, -, links⟩ := staff_schema
  have returned := extract_returned (Config.default : Config Int) (fun _ => 0) (some staff) none
  have prisma : (extract (Config.default : Config Int) (fun _ => 0) (some staff)
      none).result.dialect = .prisma := by
    decide +kernel
  obtain ⟨-, blocks⟩ := references_match_relationships _ _ _ _ returned held
  refine ⟨_, schema, returned, held, prisma, links, ?_⟩
  exact (blocks prisma).2 (Relationship.link "User" "bossId" "User" "id") (by simp [links])

end SchemaAtlas
