import SchemaAtlas.Proofs.Blocks.Headings
import SchemaAtlas.Proofs.Extraction.Results
import SchemaAtlas.Proofs.Fluent.Headings

/-!
The columns of extracted tables are those that the last declaration of the table names, and no
others: a name that it gives twice is there twice.
-/

set_option autoImplicit false

namespace SchemaAtlas

variable {R : Type}

namespace Extraction

/-- What a text says of its tables, as the reader of a tier understands it. -/
def headings (config : Config R) : Dialect → Tier → List Char → List Heading
  | .drizzle, .structural => Fluent.headings config.drizzleKeywords
  | .drizzle, .fallback => Fluent.Scan.headings config.drizzleKeywords
  | _, .structural => Blocks.headings config.prismaKeywords
  | _, .fallback => Blocks.Scan.headings config.prismaTypes

theorem nodup_ids_headings (config : Config R) {dialect : Dialect} (blocks : dialect ≠ .drizzle)
    (text : List Char) : (Heading.ids (headings config dialect .structural text)).Nodup := by
  cases dialect with
  | drizzle => exact absurd rfl blocks
  | prisma | unknown => exact Blocks.nodup_ids_headings config.prismaKeywords text

variable [Coordinate R] {config : Config R} {draws : Nat → R} {text : List Char}
  {extraction : Extraction R} {schema : Schema R}

theorem readStructurally_gives (config : Config R) (draws : Nat → R) (dialect : Dialect)
    (text : List Char) :
    (readStructurally config draws dialect text).Gives fun drawn schema =>
      Laid config.layout draws drawn (headings config dialect .structural text) schema.tables := by
  cases dialect with
  | drizzle => exact Fluent.readSchema_gives config draws text
  | prisma | unknown => exact Blocks.readSchema_gives config draws text

theorem readCoarsely_gives (config : Config R) (draws : Nat → R) (dialect : Dialect)
    (text : List Char) :
    (readCoarsely config draws dialect text).Gives fun drawn schema =>
      Laid config.layout draws drawn (headings config dialect .fallback text) schema.tables := by
  cases dialect with
  | drizzle => exact Fluent.Scan.readSchema_gives config draws text
  | prisma | unknown => exact Blocks.Scan.readSchema_gives config draws text

theorem Ends.laid (ends : Ends config draws text extraction)
    (held : extraction.result.schema? = some schema) :
    ∃ tier, extraction.result.tier = some tier ∧
      Laid config.layout draws extraction.draws
        (headings config extraction.result.dialect tier text) schema.tables := by
  cases ends with
  | failed => simp at held
  | read dialect before found read allowed =>
    cases held
    have laid := readStructurally_gives config draws dialect text schema read
    exact ⟨.structural, rfl, laid.mono (Nat.le_add_left _ _)⟩
  | reread dialect before drawn counted found read allowed =>
    cases held
    -- The second reading goes on with the draws where the first one stopped.
    have laid := readCoarsely_gives config (fun n => draws (drawn + n)) dialect text schema read
    exact ⟨.fallback, rfl, laid.unshift.mono (by simp [success, counted])⟩

end Extraction

variable [Coordinate R]

/-- Columns are named by the last declaration of their table, and nothing else is asked of the
names: they are distinct if the declaration repeats none. -/
theorem column_names_distinct_iff (config : Config R) (draws : Nat → R)
    (text : Option (List Char)) (dialect : Option String) {result : ExtractionResult R}
    {schema : Schema R}
    (returned : (extract config draws text dialect).returned = .ok result)
    (held : result.schema? = some schema) :
    ∃ tier declared, result.tier = some tier ∧
      declared = Extraction.headings config result.dialect tier (text.getD []) ∧
      (∀ table ∈ schema.tables, ∃ heading,
        Heading.last? declared table.id = some heading ∧
          table.columns.map (·.name) = heading.columns) ∧
      ((∀ table ∈ schema.tables, (table.columns.map (·.name)).Nodup) ↔
        ∀ id heading, Heading.last? declared id = some heading → heading.columns.Nodup) := by
  have ends := Extraction.extract_ends config draws text dialect
  cases returned.symm.trans ends.returned
  obtain ⟨tier, reached, laid⟩ := ends.laid held
  exact ⟨tier, _, reached, rfl, fun _ member => laid.columns member, laid.nodup_columns_iff⟩

/-- A table that names a column twice, and one of the same id that takes its place. -/
def renamed : List Char :=
  "export const t = pgTable('t', \x7b id: int('a'), id: int('b') \x7d);\n".toList ++
    "export const t = pgTable('t', \x7b id: int('a'), age: int('b') \x7d);".toList

theorem column_names_distinct_renamed : ∃ result schema,
    (extract (Config.default : Config Int) (fun _ => 0) (some renamed) none).returned =
        .ok result ∧
      result.schema? = some schema ∧
      Extraction.headings (Config.default : Config Int) .drizzle .structural renamed =
        [⟨"t", ["id", "id"]⟩, ⟨"t", ["id", "age"]⟩] ∧
      ∀ table ∈ schema.tables, (table.columns.map (·.name)).Nodup := by
  have read : (extract (Config.default : Config Int) (fun _ => 0) (some renamed)
      none).result.schema?.isSome ∧
        (extract (Config.default : Config Int) (fun _ => 0) (some renamed) none).result.tier =
          some .structural ∧
        (extract (Config.default : Config Int) (fun _ => 0) (some renamed) none).result.dialect =
          .drizzle := by
    decide +kernel
  have declared : Extraction.headings (Config.default : Config Int) .drizzle .structural renamed =
      [⟨"t", ["id", "id"]⟩, ⟨"t", ["id", "age"]⟩] := by
    decide +kernel
  obtain ⟨full, structural, drizzle⟩ := read
  obtain ⟨schema, held⟩ := Option.isSome_iff_exists.mp full
  have returned := extract_returned (Config.default : Config Int) (fun _ => 0) (some renamed) none
  refine ⟨_, schema, returned, held, declared, ?_⟩
  obtain ⟨tier, found, reached, same, -, distinct⟩ := column_names_distinct_iff _ _ _ _ returned held
  cases reached.symm.trans structural
  rw [drizzle, Option.getD_some, declared] at same
  subst same
  refine distinct.mpr fun id heading last => ?_
  by_cases named : "t" = id
  next =>
    simp [Heading.last?, named] at last
    simp [← last]
  next =>
    simp [Heading.last?, named] at last

/-- A group of columns, and a table that spreads it and gives one of its columns anew. -/
def overridden : List Char :=
  "const base = \x7b id: serial('id') \x7d;\n".toList ++
    "export const t = pgTable('t', \x7b ...base, id: uuid('id') \x7d);\n".toList

theorem column_names_repeat_when_overridden : ∃ result schema,
    (extract (Config.default : Config Int) (fun _ => 0) (some overridden) none).returned =
        .ok result ∧
      result.schema? = some schema ∧
      ¬ ∀ table ∈ schema.tables, (table.columns.map (·.name)).Nodup := by
  have read : (extract (Config.default : Config Int) (fun _ => 0) (some overridden)
      none).result.schema?.map (fun schema => (schema.tables.map fun table =>
        table.columns.map (·.name))) = some [["id", "id"]] := by
    decide +kernel
  obtain ⟨schema, held, names⟩ := Option.map_eq_some_iff.mp read
  have returned := extract_returned (Config.default : Config Int) (fun _ => 0) (some overridden)
    none
  refine ⟨_, schema, returned, held, fun distinct => ?_⟩
  have twice : ["id", "id"] ∈ schema.tables.map fun table => table.columns.map (·.name) := by
    simp [names]
  obtain ⟨table, member, same⟩ := List.mem_map.mp twice
  have apart := distinct table member
  simp [same] at apart

end SchemaAtlas
