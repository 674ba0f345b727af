import SchemaAtlas.Proofs.Extraction.Results
import SchemaAtlas.Proofs.Repeats

/-!
Settings that keep each link once: when the links of a schema are distinct under them, and what else
they change. Scripts are merged by their structural reader only. In blocks, columns get their
references from the merged links, so these can change with them.
-/

set_option autoImplicit false

namespace SchemaAtlas

variable {R : Type}

def Config.merging (config : Config R) (once : Bool) : Config R :=
  { config with deduplicateRelationships := once }

def Table.withoutReferences (table : Table R) : Table R :=
  { table with columns := table.columns.map fun column => { column with references := none } }

namespace Schema

variable {schema : Schema R} {mode : ErrorMode} {candidates : List Relationship}

theorem Settled.nodup_links (settled : schema.Settled mode true candidates) :
    (schema.relationships.map (·.linkKey)).Nodup := by
  rw [settled.relationships, Relationship.admitted, if_pos rfl,
    Relationship.map_linkKey_deduplicate]
  exact Firsts.nodup_eraseDups _

theorem Settled.nodup_links_iff
    (settled : schema.Settled mode false (Relationship.ofReferences schema.tables)) :
    (schema.relationships.map (·.linkKey)).Nodup ↔
      ∀ table ∈ schema.tables, table.LinksOnce schema.tableIds := by
  rw [settled.relationships, Relationship.admitted, if_neg Bool.false_ne_true]
  exact Relationship.nodup_ofReferences_iff settled.distinct

end Schema

namespace Blocks

@[simp] theorem withoutReferences_relink (relationships : List Relationship) (table : Table R) :
    (relink relationships table).withoutReferences = table.withoutReferences := by
  simp [relink, Table.withoutReferences]

theorem relink_eq_self_iff (relationships : List Relationship) (table : Table R) :
    relink relationships table = table ↔
      ∀ column ∈ table.columns,
        column.references = Model.reference? relationships table.id column.name := by
  have columns : relink relationships table = table ↔ (table.columns.map fun column =>
      { column with references := Model.reference? relationships table.id column.name }) =
        table.columns.map id := by
    cases table
    simp [relink]
  rw [columns, List.map_inj_left]
  refine forall₂_congr fun column _ => ?_
  cases column
  simp [eq_comm]

theorem tables_mergeLinks_eq_iff {schema : Schema R}
    (reflects : Reflects schema.relationships schema.tables) :
    (mergeLinks schema).tables = schema.tables ↔
      ∀ table ∈ schema.tables, ∀ column ∈ table.columns, Relationship.LastIsNewest
        (Relationship.linksFrom schema.relationships table.id column.name) := by
  have each : (mergeLinks schema).tables = schema.tables ↔ ∀ table ∈ schema.tables,
      relink (Relationship.deduplicate schema.relationships) table = table := by
    conv_lhs => rw [← List.map_id schema.tables]
    exact List.map_inj_left
  rw [each]
  refine forall₂_congr fun table present => ?_
  rw [relink_eq_self_iff]
  refine forall₂_congr fun column inside => ?_
  rw [reflects table present column inside, eq_comm, Model.reference?_deduplicate_iff]

end Blocks

namespace Extraction

variable {dialect : Dialect} {schema : Schema R}

/-- A schema as it is read if each link is kept once. -/
def mergeLinks : Dialect → Schema R → Schema R
  | .drizzle, schema => schema.mergeLinks
  | _, schema => Blocks.mergeLinks schema

theorem mergeLinks_enums (dialect : Dialect) (schema : Schema R) :
    (mergeLinks dialect schema).enums = schema.enums := by
  cases dialect <;> rfl

theorem withoutReferences_mergeLinks (dialect : Dialect) (schema : Schema R) :
    (mergeLinks dialect schema).tables.map Table.withoutReferences =
      schema.tables.map Table.withoutReferences := by
  cases dialect with
  | drizzle => rfl
  | prisma | unknown => simp [mergeLinks, Blocks.mergeLinks]

theorem tables_mergeLinks_eq_iff {mode : ErrorMode} (consistent : schema.Consistent dialect mode) :
    (mergeLinks dialect schema).tables = schema.tables ↔
      dialect = .drizzle ∨ ∀ table ∈ schema.tables, ∀ column ∈ table.columns,
        Relationship.LastIsNewest
          (Relationship.linksFrom schema.relationships table.id column.name) := by
  cases dialect with
  | drizzle => exact iff_of_true rfl (.inl rfl)
  | prisma | unknown =>
    simpa [mergeLinks] using Blocks.tables_mergeLinks_eq_iff (consistent.reflects nofun)

variable [Coordinate R] {config : Config R} {draws : Nat → R} {text : List Char}

theorem readStructurally_nodup_links (once : config.deduplicateRelationships = true)
    (read : (readStructurally config draws dialect text).outcome = .ok schema) :
    (schema.relationships.map (·.linkKey)).Nodup := by
  cases dialect with
  | drizzle =>
    obtain ⟨-, _, settled⟩ := (Fluent.readSchema_keeps config draws text).value schema read
    exact (once ▸ settled).nodup_links
  | prisma | unknown =>
    obtain ⟨-, -, _, settled⟩ := (Blocks.readSchema_keeps config draws text).value schema read
    exact (once ▸ settled).nodup_links

theorem readCoarsely_nodup_links_iff
    (read : (readCoarsely config draws dialect text).outcome = .ok schema) :
    (schema.relationships.map (·.linkKey)).Nodup ↔
      dialect ≠ .drizzle ∨ ∀ table ∈ schema.tables, table.LinksOnce schema.tableIds := by
  have blocks (found : (Blocks.Scan.readSchema config draws text).outcome = .ok schema) :
      (schema.relationships.map (·.linkKey)).Nodup := by
    obtain ⟨settled, -⟩ := (Blocks.Scan.readSchema_keeps config draws text).value schema found
    simp [settled.relationships, Relationship.admitted]
  cases dialect with
  | drizzle =>
    have settled := (Fluent.Scan.readSchema_keeps config draws text).value schema read
    simpa using settled.nodup_links_iff
  | prisma | unknown => simpa using blocks read

theorem readStructurally_once (config : Config R) (draws : Nat → R) (dialect : Dialect)
    (text : List Char) :
    readStructurally (config.merging true) draws dialect text =
      mergeLinks dialect <$> readStructurally (config.merging false) draws dialect text := by
  cases dialect with
  | drizzle => exact Fluent.readSchema_once config draws text
  | prisma | unknown => exact Blocks.readSchema_once config draws text

theorem readCoarsely_once (config : Config R) (draws : Nat → R) (dialect : Dialect)
    (text : List Char) :
    readCoarsely (config.merging true) draws dialect text =
      readCoarsely (config.merging false) draws dialect text := by
  have same : Blocks.Scan.readSchema (config.merging true) =
      Blocks.Scan.readSchema (config.merging false) := Blocks.Scan.readSchema_congr rfl rfl
  cases dialect with
  | drizzle => exact Fluent.Scan.readSchema_once config draws text
  | prisma | unknown => simp only [readCoarsely, same]

/-- How two extractions end of which only the second one keeps each link once. -/
inductive Merges : Extraction R → Extraction R → Prop
  | failed (dialect : Dialect) (journal : Journal) (message : String) :
    Merges (failure dialect journal message) (failure dialect journal message)
  | read (dialect : Dialect) (journal : Journal) (schema : Schema R) :
    Merges (success dialect .structural journal schema)
      (success dialect .structural journal (mergeLinks dialect schema))
  | reread (dialect : Dialect) (journal : Journal) (schema : Schema R) :
    Merges (success dialect .fallback journal schema) (success dialect .fallback journal schema)

theorem retry_merges (config : Config R) (draws : Nat → R) (dialect : Dialect) (text : List Char)
    (journal : Journal) (fault : Fault) :
    Merges (retry (config.merging false) draws dialect text journal fault)
      (retry (config.merging true) draws dialect text journal fault) := by
  have report : emptyFault? (config.merging true) dialect fault =
      emptyFault? (config.merging false) dialect fault := rfl
  simp only [retry, readCoarsely_once, report]
  split
  next => exact .failed _ _ _
  next =>
    split
    next => exact .failed _ _ _
    next => exact .reread _ _ _

theorem ofDialect_merges (config : Config R) (draws : Nat → R) (dialect : Dialect)
    (text cleaned : List Char) (before : Journal) :
    Merges (ofDialect (config.merging false) draws dialect text cleaned before)
      (ofDialect (config.merging true) draws dialect text cleaned before) := by
  have same : (config.merging true).drizzleKeywords = (config.merging false).drizzleKeywords ∧
      (config.merging true).prismaKeywords = (config.merging false).prismaKeywords ∧
      (config.merging true).enableFallback = (config.merging false).enableFallback :=
    ⟨rfl, rfl, rfl⟩
  simp only [ofDialect, same, readStructurally_once, Journaled.map_outcome, Journaled.map_journal]
  split
  next =>
    cases (readStructurally (config.merging false) draws dialect text).outcome with
    | ok schema => exact .read _ _ _
    | error fault =>
      simp only [Except.map]
      split
      next => exact .failed _ _ _
      next => exact .failed _ _ _
      next => exact retry_merges _ _ _ _ _ _
  next => exact .failed _ _ _

theorem extract_merges (config : Config R) (draws : Nat → R) (text : Option (List Char))
    (dialect : Option String) :
    Merges (extract (config.merging false) draws text dialect)
      (extract (config.merging true) draws text dialect) := by
  unfold extract
  split
  next => exact .failed _ _ _
  next cleaned _ =>
    have same : dialectOf (config.merging true) dialect cleaned =
        dialectOf (config.merging false) dialect cleaned := rfl
    simp only [same]
    split
    next => exact .failed _ _ _
    next => exact ofDialect_merges _ _ _ _ _ _

end Extraction

variable [Coordinate R]

/-- Where each link is to be kept once, one is repeated only by the coarse reader of scripts, and
only if two columns of a table share their name and their reference. -/
theorem merged_links_distinct_iff (config : Config R)
    (once : config.deduplicateRelationships = true) (draws : Nat → R) (text : Option (List Char))
    (dialect : Option String) {result : ExtractionResult R} {schema : Schema R}
    (returned : (extract config draws text dialect).returned = .ok result)
    (held : result.schema? = some schema) :
    (schema.relationships.map (·.linkKey)).Nodup ↔
      result.tier = some .structural ∨ result.dialect ≠ .drizzle ∨
        ∀ table ∈ schema.tables, table.LinksOnce schema.tableIds := by
  have ends := Extraction.extract_ends config draws text dialect
  cases returned.symm.trans ends.returned
  generalize extract config draws text dialect = extraction at ends held ⊢
  cases ends with
  | failed => simp at held
  | read dialect before found read allowed =>
    cases held
    exact iff_of_true (Extraction.readStructurally_nodup_links once read) (.inl rfl)
  | reread dialect before drawn counted found read allowed =>
    cases held
    have coarse := Extraction.readCoarsely_nodup_links_iff read
    constructor
    next => exact fun distinct => .inr (coarse.mp distinct)
    next =>
      rintro (structural | apart)
      · cases structural
      · exact coarse.mpr apart

/-- A table that declares one column and its reference twice, up to the brackets that close it. -/
def twice : List Char :=
  "export const a = pgTable('a', \x7b b: int('b').references(() => a.b), ".toList ++
    "b: int('b').references(() => a.b)".toList

def twiceClosed : List Char := twice ++ " \x7d)".toList

theorem merged_links_distinct_twice : ∃ result schema,
    (extract ((Config.default : Config Int).merging true) (fun _ => 0) (some twiceClosed)
        none).returned = .ok result ∧
      result.schema? = some schema ∧ result.tier = some .structural ∧
      (schema.relationships.map (·.linkKey)).Nodup := by
  have read : (extract ((Config.default : Config Int).merging true) (fun _ => 0)
      (some twiceClosed) none).result.schema?.isSome ∧
        (extract ((Config.default : Config Int).merging true) (fun _ => 0)
          (some twiceClosed) none).result.tier = some .structural := by
    decide +kernel
  obtain ⟨full, structural⟩ := read
  obtain ⟨schema, held⟩ := Option.isSome_iff_exists.mp full
  have returned := extract_returned ((Config.default : Config Int).merging true) (fun _ => 0)
    (some twiceClosed) none
  refine ⟨_, schema, returned, held, structural, ?_⟩
  exact (merged_links_distinct_iff _ rfl _ _ _ returned held).mpr (.inl structural)

/-- Without its closing brackets the same text is read coarsely, and there the link is repeated. -/
theorem merged_links_repeat_when_read_coarsely : ∃ result schema,
    (extract ((Config.default : Config Int).merging true) (fun _ => 0) (some twice)
        none).returned = .ok result ∧
      result.schema? = some schema ∧ ¬ (schema.relationships.map (·.linkKey)).Nodup := by
  have read : (extract ((Config.default : Config Int).merging true) (fun _ => 0) (some twice)
      none).result.schema?.map (·.relationships) =
        some [Relationship.link "a" "b" "a" "b", Relationship.link "a" "b" "a" "b"] := by
    decide +kernel
  obtain ⟨schema, held, links⟩ := Option.map_eq_some_iff.mp read
  have returned := extract_returned ((Config.default : Config Int).merging true) (fun _ => 0)
    (some twice) none
  exact ⟨_, schema, returned, held, by simp [links]⟩

/-- Keeping each link once changes nothing but the relationships, except where a model is read from
its block: there a column loses its last link to an older one if it was met before that. -/
theorem merging_changes_links_only (config : Config R) (draws : Nat → R)
    (text : Option (List Char)) (dialect : Option String) :
    ∃ plain merged,
      (extract (config.merging false) draws text dialect).returned = .ok plain ∧
      (extract (config.merging true) draws text dialect).returned = .ok merged ∧
      (merged.isSuccess = plain.isSuccess ∧ merged.error? = plain.error? ∧
        merged.dialect = plain.dialect ∧ merged.tier = plain.tier ∧
        merged.warnings = plain.warnings) ∧
      ∀ schema, plain.schema? = some schema →
        ∃ thinned, merged.schema? = some thinned ∧ thinned.enums = schema.enums ∧
          thinned.tables.map Table.withoutReferences =
            schema.tables.map Table.withoutReferences ∧
          (thinned.tables = schema.tables ↔
            plain.tier = some .fallback ∨ plain.dialect = .drizzle ∨
              ∀ table ∈ schema.tables, ∀ column ∈ table.columns, Relationship.LastIsNewest
                (Relationship.linksFrom schema.relationships table.id column.name)) := by
  have ends := Extraction.extract_ends (config.merging false) draws text dialect
  have merges := Extraction.extract_merges config draws text dialect
  have once := extract_returned (config.merging true) draws text dialect
  refine ⟨_, _, ends.returned, once, ?_⟩
  have found (schema : Schema R)
      (held : (extract (config.merging false) draws text dialect).result.schema? = some schema) :=
    (ends.found held).1
  generalize extract (config.merging false) draws text dialect = plain at merges found ⊢
  generalize extract (config.merging true) draws text dialect = merged at merges ⊢
  cases merges with
  | failed dialect journal message =>
    refine ⟨⟨rfl, rfl, rfl, rfl, rfl⟩, fun schema held => ?_⟩
    simp at held
  | reread dialect journal schema =>
    refine ⟨⟨rfl, rfl, rfl, rfl, rfl⟩, fun schema held => ?_⟩
    cases held
    exact ⟨schema, rfl, rfl, rfl, iff_of_true rfl (.inl rfl)⟩
  | read dialect journal schema =>
    refine ⟨⟨rfl, rfl, rfl, rfl, rfl⟩, fun schema held => ?_⟩
    cases held
    have consistent : schema.Consistent dialect config.onUnresolved := found schema rfl
    refine ⟨_, rfl, Extraction.mergeLinks_enums dialect schema,
      Extraction.withoutReferences_mergeLinks dialect schema, ?_⟩
    refine (Extraction.tables_mergeLinks_eq_iff consistent).trans ?_
    simp [Extraction.result, Extraction.success_returned]

/-- A model with three relations from one column, the last of which repeats the first one. -/
def rejoined (between : String) : List Char :=
  "model M \x7b\n c Int\n x Int\n y Int\n a M @relation(fields: [c], references: [x])\n".toList ++
    " b M @relation(fields: [c], references: [".toList ++ between.toList ++ "])\n".toList ++
    " d M @relation(fields: [c], references: [x])\n\x7d".toList

theorem merging_changes_links_only_rejoined : ∃ plain merged schema thinned,
    (extract ((Config.default : Config Int).merging false) (fun _ => 0) (some (rejoined "x"))
        none).returned = .ok plain ∧
      (extract ((Config.default : Config Int).merging true) (fun _ => 0) (some (rejoined "x"))
        none).returned = .ok merged ∧
      plain.schema? = some schema ∧ merged.schema? = some thinned ∧
      schema.relationships = List.replicate 3 (Relationship.link "M" "c" "M" "x") ∧
      thinned.tables = schema.tables := by
  have read : (extract ((Config.default : Config Int).merging false) (fun _ => 0)
      (some (rejoined "x")) none).result.schema?.map (fun schema => (schema.relationships, decide
        (∀ table ∈ schema.tables, ∀ column ∈ table.columns, Relationship.LastIsNewest
          (Relationship.linksFrom schema.relationships table.id column.name)))) =
        some (List.replicate 3 (Relationship.link "M" "c" "M" "x"), true) := by
    decide +kernel
  obtain ⟨schema, held, same⟩ := Option.map_eq_some_iff.mp read
  obtain ⟨links, newest⟩ := Prod.mk.inj same
  obtain ⟨plain, merged, returned, once, -, tables⟩ :=
    merging_changes_links_only (Config.default : Config Int) (fun _ => 0) (some (rejoined "x")) none
  have found := Except.ok.inj (returned.symm.trans (extract_returned _ _ _ _))
  rw [← found] at held
  obtain ⟨thinned, thin, -, -, unchanged⟩ := tables schema held
  refine ⟨_, merged, schema, thinned, returned, once, held, thin, links, ?_⟩
  exact unchanged.mpr (.inr (.inr (of_decide_eq_true newest)))

/-- The first mention of a link is kept while the last one is what a column references, so that the
column references another one if links are merged. -/
theorem merging_changes_references : ∃ plain merged schema thinned,
    (extract ((Config.default : Config Int).merging false) (fun _ => 0) (some (rejoined "y"))
        none).returned = .ok plain ∧
      (extract ((Config.default : Config Int).merging true) (fun _ => 0) (some (rejoined "y"))
        none).returned = .ok merged ∧
      plain.schema? = some schema ∧ merged.schema? = some thinned ∧
      thinned.tables ≠ schema.tables := by
  have last : (extract ((Config.default : Config Int).merging false) (fun _ => 0)
      (some (rejoined "y")) none).result.schema?.map
        (·.tables.map fun table => table.columns.map (·.references)) =
          some [[some ⟨"M", "x"⟩, none, none]] := by
    decide +kernel
  have newest : (extract ((Config.default : Config Int).merging true) (fun _ => 0)
      (some (rejoined "y")) none).result.schema?.map
        (·.tables.map fun table => table.columns.map (·.references)) =
          some [[some ⟨"M", "y"⟩, none, none]] := by
    decide +kernel
  obtain ⟨schema, held, references⟩ := Option.map_eq_some_iff.mp last
  obtain ⟨thinned, thin, references'⟩ := Option.map_eq_some_iff.mp newest
  refine ⟨_, _, schema, thinned, extract_returned _ _ _ _, extract_returned _ _ _ _, held, thin, ?_⟩
  intro same
  rw [same, references] at references'
  exact absurd references' (by decide)

end SchemaAtlas
