import SchemaAtlas.Proofs.Extraction.Results

/-!
The three modes for references to unknown tables, run on the same text. Two of them differ in their
reports only, and the strict one either fails or agrees with them.
-/

set_option autoImplicit false

namespace SchemaAtlas

variable {R : Type}

def Config.inMode (config : Config R) (mode : ErrorMode) : Config R :=
  { config with onUnresolved := mode }

def ExtractionResult.without (drops : Warning → Bool) (result : ExtractionResult R) :
    ExtractionResult R :=
  { result with warnings := result.warnings.filter (!drops ·) }

namespace Extraction

def without (drops : Warning → Bool) (extraction : Extraction R) : Extraction R :=
  { extraction with returned := extraction.returned.map (·.without drops) }

theorem success_without (drops : Warning → Bool) (dialect : Dialect) (tier : Tier)
    (journal : Journal) (schema : Schema R) :
    success dialect tier (journal.without drops) schema =
      (success dialect tier journal schema).without drops := rfl

theorem failure_without (drops : Warning → Bool) (dialect : Dialect) (journal : Journal)
    (message : String) :
    (failure dialect (journal.without drops) message : Extraction R) =
      (failure dialect journal message).without drops := by
  by_cases said : message = ""
  · simp [failure, without, ExtractionResult.ofParts?, said, Except.map, Journal.without]
  · simp [failure, without, ExtractionResult.ofParts?, said, Except.map, Journal.without,
      ExtractionResult.without]

theorem result_without {extraction : Extraction R} (drops : Warning → Bool)
    (returned : extraction.returned = .ok extraction.result) :
    (extraction.without drops).result = extraction.result.without drops := by
  rw [result, without, returned]
  rfl

def FailsOr (strict other : Extraction R) : Prop :=
  (∃ dialect journal message, strict = failure dialect journal message) ∨ strict = other

theorem FailsOr.eq_of_schema {strict other : Extraction R} {schema : Schema R}
    (related : FailsOr strict other) (held : strict.result.schema? = some schema) :
    strict = other := by
  rcases related with ⟨dialect, journal, message, rfl⟩ | same
  · simp at held
  · exact same

variable [Coordinate R]

theorem retry_ignore (config : Config R) (draws : Nat → R) (dialect : Dialect) (text : List Char)
    (journal : Journal) (fault : Fault) :
    retry { config with onUnresolved := .ignore } draws dialect text
        (journal.without Warning.reportsDrop) fault =
      (retry { config with onUnresolved := .warn } draws dialect text journal fault).without
        Warning.reportsDrop := by
  -- The numbers drawn before the second reading are the same, and the handover is no report.
  have handed : ({ warnings := [.handover dialect.displayName fault.describe] } : Journal) =
      Journal.without Warning.reportsDrop
        { warnings := [.handover dialect.displayName fault.describe] } :=
    (Journal.without_eq_self (by simp [handover_reportsDrop])).symm
  have again := readCoarsely_ignore config (fun n => draws (journal.draws + n)) dialect text
  have same : (journal.without Warning.reportsDrop).draws = journal.draws := rfl
  simp only [retry, same, again, Journaled.without_outcome, Journaled.without_journal]
  rw [handed, ← Journal.without_append, ← Journal.without_append, ← handed]
  split
  next => exact failure_without _ _ _ _
  next schema _ =>
    have report : emptyFault? { config with onUnresolved := .ignore } dialect fault =
        emptyFault? { config with onUnresolved := .warn } dialect fault := rfl
    rw [report]
    split
    next => exact failure_without _ _ _ _
    next => exact success_without _ _ _ _ _

theorem ofDialect_ignore (config : Config R) (draws : Nat → R) (dialect : Dialect)
    (text cleaned : List Char) {before : Journal}
    (plain : ∀ warning ∈ before.warnings, warning.reportsDrop = false) :
    ofDialect { config with onUnresolved := .ignore } draws dialect text cleaned before =
      (ofDialect { config with onUnresolved := .warn } draws dialect text cleaned before).without
        Warning.reportsDrop := by
  have early := Journal.without_eq_self plain
  have again := readStructurally_ignore config draws dialect text
  simp only [ofDialect, again, Journaled.without_outcome, Journaled.without_journal]
  rw [← early, ← Journal.without_append, early]
  split
  next =>
    split
    next => exact success_without _ _ _ _ _
    next =>
      split
      next => exact failure_without _ _ _ _
      next => exact failure_without _ _ _ _
      next => exact retry_ignore _ _ _ _ _ _
  next => rw [← failure_without, early]

theorem extract_ignore (config : Config R) (draws : Nat → R) (text : Option (List Char))
    (dialect : Option String) :
    extract { config with onUnresolved := .ignore } draws text dialect =
      (extract { config with onUnresolved := .warn } draws text dialect).without
        Warning.reportsDrop := by
  unfold extract
  split
  next => exact failure_without _ _ {} _
  next cleaned _ =>
    have kept := dialectOf_keeps { config with onUnresolved := .warn } dialect cleaned
    have same : dialectOf { config with onUnresolved := .ignore } dialect cleaned =
        dialectOf { config with onUnresolved := .warn } dialect cleaned := rfl
    simp only [same]
    split
    next => rw [← failure_without, Journal.without_eq_self kept.warnings]
    next => exact ofDialect_ignore _ _ _ _ _ kept.warnings

theorem retry_fail_or (config : Config R) (draws : Nat → R) (dialect : Dialect) (text : List Char)
    (journal : Journal) (fault : Fault) :
    FailsOr (retry { config with onUnresolved := .fail } draws dialect text journal fault)
      (retry { config with onUnresolved := .warn } draws dialect text journal fault) := by
  rcases readCoarsely_fail_or config (fun n => draws (journal.draws + n)) dialect text with
    ⟨report, failed, -⟩ | same
  · exact .inl ⟨dialect, _, coarseMessage report, by simp only [retry, failed]; rfl⟩
  · right
    simp only [retry, same]
    rfl

theorem ofDialect_fail_or (config : Config R) (draws : Nat → R) (dialect : Dialect)
    (text cleaned : List Char) (before : Journal) :
    FailsOr (ofDialect { config with onUnresolved := .fail } draws dialect text cleaned before)
      (ofDialect { config with onUnresolved := .warn } draws dialect text cleaned before) := by
  unfold ofDialect
  simp only
  split
  next =>
    rcases readStructurally_fail_or config draws dialect text with ⟨report, failed, given⟩ | same
    · -- An unknown table ends a strict reading for good: there is no second one.
      simp only [failed]
      cases report with
      | unresolvedReference => exact .inl ⟨dialect, _, _, rfl⟩
      | _ => cases given
    · rw [same]
      split
      next => exact .inr rfl
      next =>
        split
        next => exact .inr rfl
        next => exact .inr rfl
        next => exact retry_fail_or _ _ _ _ _ _
  next => exact .inr rfl

theorem extract_fail_or (config : Config R) (draws : Nat → R) (text : Option (List Char))
    (dialect : Option String) :
    FailsOr (extract { config with onUnresolved := .fail } draws text dialect)
      (extract { config with onUnresolved := .warn } draws text dialect) := by
  unfold extract
  split
  next => exact .inr rfl
  next cleaned _ =>
    have same : dialectOf { config with onUnresolved := .fail } dialect cleaned =
        dialectOf { config with onUnresolved := .warn } dialect cleaned := rfl
    simp only [same]
    split
    next => exact .inr rfl
    next => exact ofDialect_fail_or _ _ _ _ _ _

end Extraction

variable [Coordinate R]

/-- The mode decides what is said of unknown tables and whether they are a failure; nothing else
observes it. -/
theorem modes_agree (config : Config R) (draws : Nat → R) (text : Option (List Char))
    (dialect : Option String) :
    ∃ warned ignored,
      (extract (config.inMode .warn) draws text dialect).returned = .ok warned ∧
      (extract (config.inMode .ignore) draws text dialect).returned = .ok ignored ∧
      (ignored.outcome = warned.outcome ∧ ignored.dialect = warned.dialect ∧
        ignored.tier = warned.tier ∧
        ignored.warnings = warned.warnings.filter fun warning => !warning.reportsDrop) ∧
      ∀ strict schema,
        (extract (config.inMode .fail) draws text dialect).returned = .ok strict →
        strict.schema? = some schema →
          (warned.schema? = some schema ∧ warned.tier = strict.tier) ∧
          (∀ table ∈ schema.tables, ∀ column ∈ table.columns, ∀ reference,
            column.references = some reference → reference.table ∈ schema.tableIds) ∧
          ∀ warning ∈ warned.warnings, warning.reportsDrop = false := by
  have warned := extract_returned (config.inMode .warn) draws text dialect
  have ignored := extract_returned (config.inMode .ignore) draws text dialect
  refine ⟨_, _, warned, ignored, ?_, ?_⟩
  next =>
    have silent : (extract (config.inMode .ignore) draws text dialect).result =
        (extract (config.inMode .warn) draws text dialect).result.without Warning.reportsDrop := by
      rw [← Extraction.result_without _ warned]
      exact congrArg Extraction.result (Extraction.extract_ignore config draws text dialect)
    rw [silent]
    exact ⟨rfl, rfl, rfl, rfl⟩
  next =>
    intro strict schema returned held
    have ends := Extraction.extract_ends (config.inMode .fail) draws text dialect
    cases returned.symm.trans ends.returned
    obtain ⟨consistent, -, allowed⟩ := ends.found held
    -- Where the strict run finds a schema it is the warning run, so that had nothing to report.
    have same : extract (config.inMode .fail) draws text dialect =
        extract (config.inMode .warn) draws text dialect :=
      (Extraction.extract_fail_or config draws text dialect).eq_of_schema held
    rw [← same]
    refine ⟨⟨held, rfl⟩, consistent.strict rfl, fun warning member => ?_⟩
    exact (allowed warning member).plain nofun

def tree : List Char :=
  "export const a = pgTable('a', \x7b b: int('b').references(() => a.b) \x7d)".toList

theorem modes_agree_on_tree : ∃ strict warned schema,
    (extract ((Config.default : Config Int).inMode .fail) (fun _ => 0) (some tree)
        none).returned = .ok strict ∧
      strict.schema? = some schema ∧
      (extract ((Config.default : Config Int).inMode .warn) (fun _ => 0) (some tree)
        none).returned = .ok warned ∧
      warned.schema? = some schema ∧
      schema.relationships = [Relationship.link "a" "b" "a" "b"] := by
  have read : (extract ((Config.default : Config Int).inMode .fail) (fun _ => 0) (some tree)
      none).result.schema?.map (·.relationships) = some [Relationship.link "a" "b" "a" "b"] := by
    decide +kernel
  obtain ⟨schema, held, links⟩ := Option.map_eq_some_iff.mp read
  have returned := extract_returned ((Config.default : Config Int).inMode .fail) (fun _ => 0)
    (some tree) none
  obtain ⟨warned, _, reported, -, -, strict⟩ :=
    modes_agree (Config.default : Config Int) (fun _ => 0) (some tree) none
  obtain ⟨⟨agreed, -⟩, -⟩ := strict _ schema returned held
  exact ⟨_, warned, schema, returned, held, reported, agreed, links⟩

end SchemaAtlas
