import SchemaAtlas.Proofs.Fluent.Declared
import SchemaAtlas.Proofs.Fluent.Skimmed

/-!
The two readings of a written table. Both find it with all its columns, and they agree on how the
columns are marked exactly if no marking hangs on a modifier with arguments of its own.
-/

set_option autoImplicit false

namespace SchemaAtlas.Fluent.Written

open Script Text

variable {R : Type} [Coordinate R]

/-- What the modifiers of a column say with arguments, they also say without. -/
def Column.PlainlyMarked (column : Column) : Prop :=
  (∀ modifier ∈ column.modifiers, ∀ flag, modifier.flag? = some flag →
    ∃ bare ∈ column.modifiers, bare.isBare = true ∧ bare.flag? = some flag) ∧
  column.reference? Modifier.isBare = column.reference? fun _ => true

namespace Table.WellFormed

variable {table : Table}

theorem scanColumns (formed : table.WellFormed) (unbracketed : table.Unbracketed) :
    ∃ columns, Scan.columns TypeMap.drizzle.provider
        (commaText [' '] (table.columns.map Column.text) ++ [' ', '}', ')']) = .ok columns ∧
      List.Forall₂ (Column.IsColumn Modifier.isBare) table.columns columns := by
  have body : closeGroup? '{' (commaText [' '] (table.columns.map Column.text) ++ [' '] ++
      '}' :: [')']) = some (commaText [' '] (table.columns.map Column.text) ++ [' '], [')']) :=
    formed.tidy_columns.nested.closeGroup?_append rfl _
  rw [List.append_assoc, List.singleton_append] at body
  have each : List.Forall₂ (fun column text => text = Column.text column) table.columns
      (table.columns.map Column.text) := by
    simp [List.forall₂_map_right_iff, List.forall₂_same]
  have reads (column : Column) (member : column ∈ table.columns) (text : List Char)
      (same : text = Column.text column) :
      ∃ result, Scan.column? TypeMap.drizzle.provider text = .ok result ∧
        ∃ built, result = some built ∧ column.IsColumn Modifier.isBare built := by
    subst same
    obtain ⟨built, read, holds⟩ :=
      (formed.columns column member).scanColumn?_text (unbracketed.columns column member)
    exact ⟨some built, read, built, rfl, holds⟩
  obtain ⟨found, mapped, described⟩ := exists_mapM each reads
  refine ⟨found.filterMap fun column => column, ?_, ?_⟩
  · rw [Scan.columns, body]
    simp only [Option.map_some, Option.getD_some, formed.splitCommas_columns, mapped]
    rfl
  · clear mapped each
    generalize table.columns = columns at described
    induction described with
    | nil => exact .nil
    | cons first _ ih =>
      obtain ⟨built, rfl, holds⟩ := first
      exact .cons holds ih

/-- The declaration that a coarse reading finds in the text of a table. -/
def opening (table : Table) : Scan.Opening :=
  { name := table.id, callee := "pgTable", behind := table.behind }

theorem scanAddTable (formed : table.WellFormed) (unbracketed : table.Unbracketed)
    (draws : Nat → R) :
    (Scan.addTable Config.default draws ({}, 0) (opening table)).Returns
      (table.Registered Modifier.isBare draws ·.1) := by
  obtain ⟨columns, read, described⟩ := formed.scanColumns unbracketed
  have callee : "pgTable" ∉ DrizzleKeywords.enumConstructors {} ∧
      "pgTable" ∉ DrizzleKeywords.tableCreators {} ∧
      "pgTable" ∈ DrizzleKeywords.tableConstructors {} := by decide
  have arguments : Scan.tableArguments? {} (opening table) = some table.behind := by
    rw [Scan.tableArguments?, opening, if_neg callee.2.1, if_pos callee.2.2]
  have found : (Journaled.ofExcept (Scan.columns TypeMap.drizzle.provider
      (commaText [' '] (table.columns.map Column.text) ++ [' ', '}', ')']))).Returns (· = columns) :=
    .ofExcept read
  have keywords : (Config.default : Config R).drizzleKeywords = {} := rfl
  rw [Scan.addTable]
  simp only [keywords, arguments, Option.bind_some, formed.tableHead?_behind unbracketed]
  rw [opening, if_neg callee.1]
  refine found.bind fun _ same => ?_
  refine (Journaled.Returns.record _).bind fun _ _ => ?_
  refine (Registry.register_returns _ _).bind fun registry registered => .pure ?_
  subst same
  exact ⟨_, registered, rfl, by simp, described, rfl, rfl⟩

/-- A written table is read coarsely as a table of which only the bare modifiers count. -/
theorem scan_text (formed : table.WellFormed) (unbracketed : table.Unbracketed) (draws : Nat → R) :
    (Scan.readSchema Config.default draws table.text).Returns fun schema =>
      ∃ read, schema.tables = [read] ∧ table.IsTable Modifier.isBare draws read := by
  have whole : table.text = Scan.openingText table.id.toList "pgTable".toList ++ table.behind := by
    rw [text_eq, constantText, Scan.openingText_append]
    simp
  have openings : allMatches (fun _ => Scan.opening?) table.text = [opening table] := by
    rw [whole, Scan.openings_single formed.id.word (by decide) (formed.uncalled_behind unbracketed)]
    simp [opening]
  rw [Scan.readSchema, stripComments_eq_self formed.tidy.uncommented]
  refine .mapFault _ ?_
  rw [Scan.scan, openings, List.foldlM_cons]
  simp only [List.foldlM_nil, bind_pure]
  refine (formed.scanAddTable unbracketed draws).bind ?_
  rintro ⟨registry, _⟩ ⟨read, built, described⟩
  have merged : registry.merged = [read] := by
    rw [show registry = _ from built]
    simp [Registry.merged, Registry.pendingIndexes, SchemaAtlas.Table.addIndexes]
  simp only [merged]
  exact (Relationship.resolve_warn _ _).bind fun relationships _ => .pure ⟨read, rfl, described⟩

end Table.WellFormed

theorem Column.marks_isBare_iff (column : Column) (flag : Flag) :
    (column.marks (fun _ => true) flag = column.marks Modifier.isBare flag) ↔
      ∀ modifier ∈ column.modifiers, modifier.flag? = some flag →
        ∃ bare ∈ column.modifiers, bare.isBare = true ∧ bare.flag? = some flag := by
  rw [Bool.eq_iff_iff]
  simp only [marks, List.any_filter, List.any_eq_true, Bool.true_and, Bool.and_eq_true,
    decide_eq_true_eq]
  constructor
  · exact fun same modifier member marked => same.mp ⟨modifier, member, marked⟩
  · intro each
    constructor
    · rintro ⟨modifier, member, marked⟩
      exact each modifier member marked
    · rintro ⟨modifier, member, -, marked⟩
      exact ⟨modifier, member, marked⟩

/-- Two columns that stand for a written one are the same if the modifiers that count for them mark
it in the same way. -/
theorem Column.IsColumn.eq_iff {written : Column} {first second : SchemaAtlas.Column}
    (structural : written.IsColumn (fun _ => true) first)
    (coarse : written.IsColumn Modifier.isBare second) :
    first = second ↔ written.PlainlyMarked := by
  have flags : written.PlainlyMarked ↔ (∀ flag, written.marks (fun _ => true) flag =
      written.marks Modifier.isBare flag) ∧
        written.reference? Modifier.isBare = written.reference? fun _ => true := by
    simp only [PlainlyMarked, marks_isBare_iff]
    refine and_congr_left' ⟨?_, ?_⟩
    · exact fun each flag modifier member => each modifier member flag
    · exact fun each modifier member flag => each flag modifier member
  rw [flags]
  constructor
  · rintro rfl
    refine ⟨fun flag => ?_, coarse.references.symm.trans structural.references⟩
    cases flag with
    | primaryKey => exact structural.isPrimaryKey.symm.trans coarse.isPrimaryKey
    | unique => exact structural.isUnique.symm.trans coarse.isUnique
    | notNull => exact structural.isNotNull.symm.trans coarse.isNotNull
  · rintro ⟨marks, references⟩
    obtain ⟨firstName, firstType, _, _, _, _, _, _, _⟩ := first
    obtain ⟨secondName, secondType, _, _, _, _, _, _, _⟩ := second
    obtain ⟨rfl, rfl, rfl, rfl, rfl, rfl, rfl⟩ := structural
    obtain ⟨rfl, rfl, rfl, rfl, rfl, rfl, rfl⟩ := coarse
    simp only [marks, references]

theorem eq_iff_of_columns {columns : List Column} {first second : List SchemaAtlas.Column}
    (structural : List.Forall₂ (Column.IsColumn fun _ => true) columns first)
    (coarse : List.Forall₂ (Column.IsColumn Modifier.isBare) columns second) :
    first = second ↔ ∀ column ∈ columns, column.PlainlyMarked := by
  induction structural generalizing second with
  | nil =>
    cases coarse
    simp
  | cons here _ ih =>
    cases coarse with
    | cons there others =>
      rw [List.cons.injEq, here.eq_iff there, ih others, List.forall_mem_cons]

theorem names_of_columns {counts : Modifier → Bool} {columns : List Column}
    {found : List SchemaAtlas.Column} (described : List.Forall₂ (Column.IsColumn counts) columns found) :
    found.map (·.name) = columns.map (·.key) := by
  induction described with
  | nil => rfl
  | cons first _ ih => rw [List.map_cons, List.map_cons, first.name, ih]

/-- Both readings of a written table find one table of its id and its name with a column for each
entry. The columns are marked in the same way exactly if all of them are marked without
arguments. -/
theorem literal_tiers_agree_iff {table : Table} (formed : table.WellFormed)
    (unbracketed : table.Unbracketed) (draws : Nat → R) :
    ∃ structural coarse : Schema R, ∃ first second : SchemaAtlas.Table R,
      (Fluent.readSchema Config.default draws table.text).outcome = .ok structural ∧
      (Scan.readSchema Config.default draws table.text).outcome = .ok coarse ∧
      structural.tables = [first] ∧ coarse.tables = [second] ∧
      (first.id = table.id ∧ second.id = table.id) ∧
      (first.name = table.name ∧ second.name = table.name) ∧
      first.columns.map (·.name) = table.columns.map (·.key) ∧
      second.columns.map (·.name) = table.columns.map (·.key) ∧
      (first.columns = second.columns ↔ ∀ column ∈ table.columns, column.PlainlyMarked) := by
  obtain ⟨structural, read, first, single, described⟩ := formed.readSchema_text draws
  obtain ⟨coarse, scanned, second, alone, found⟩ := formed.scan_text unbracketed draws
  refine ⟨structural, coarse, first, second, read, scanned, single, alone, ⟨described.id, found.id⟩,
    ⟨described.name, found.name⟩, names_of_columns described.columns,
    names_of_columns found.columns, eq_iff_of_columns described.columns found.columns⟩

/-- A table whose only column is marked by some modifiers. -/
def markedBy (modifiers : List Modifier) : Table :=
  { id := "accounts", name := "accounts"
    columns := [{ key := "owner", builder := "integer", name := "owner_id", modifiers }] }

theorem isInside_of_words {cs : List Char} (words : ∀ c ∈ cs, isWord c = true) : IsInside '\'' cs where
  quotes := .inl rfl
  unquoted member := absurd (words _ member) (by decide)
  plain c member := by
    have inside := words c member
    refine ⟨?_, ?_, ?_⟩ <;> rintro rfl <;> exact absurd inside (by decide)

theorem wellFormed_markedBy {modifiers : List Modifier}
    (each : ∀ modifier ∈ modifiers, modifier.WellFormed) : (markedBy modifiers).WellFormed where
  id := (by decide : IsName "accounts")
  name := isInside_of_words (by decide : ∀ c ∈ "accounts".toList, isWord c = true)
  columns := by
    rintro _ (_ | ⟨_, ⟨⟩⟩)
    exact ⟨(by decide : IsName "owner"), (by decide : IsName "integer"),
      isInside_of_words (by decide : ∀ c ∈ "owner_id".toList, isWord c = true), each⟩

theorem unbracketed_markedBy {modifiers : List Modifier}
    (each : ∀ modifier ∈ modifiers, ∀ literal ∈ modifier.literals, '(' ∉ literal.text) :
    (markedBy modifiers).Unbracketed where
  some := (by decide : "accounts".toList ≠ [])
  name := (by decide : ∀ c ∈ "accounts".toList, isQuote c = false ∧ c ≠ '(')
  columns := by
    rintro _ (_ | ⟨_, ⟨⟩⟩)
    exact ⟨(by decide : '(' ∉ "owner_id".toList), each⟩

/-- A key that refers to another table. -/
def keyed : Table :=
  markedBy [.flag .primaryKey [], .references { table := "people", column := "id" } []]

theorem literal_tiers_agree_iff_keyed :
    (keyed.WellFormed ∧ keyed.Unbracketed) ∧
      ∃ structural coarse : Schema Int, ∃ first second : SchemaAtlas.Table Int,
        (Fluent.readSchema Config.default (fun _ => 0) keyed.text).outcome = .ok structural ∧
        (Scan.readSchema Config.default (fun _ => 0) keyed.text).outcome = .ok coarse ∧
        structural.tables = [first] ∧ coarse.tables = [second] ∧
        (first.id = keyed.id ∧ second.id = keyed.id) ∧
        (first.name = keyed.name ∧ second.name = keyed.name) ∧
        first.columns.map (·.name) = keyed.columns.map (·.key) ∧
        second.columns.map (·.name) = keyed.columns.map (·.key) ∧
        (first.columns = second.columns ↔ ∀ column ∈ keyed.columns, column.PlainlyMarked) :=
  have formed : keyed.WellFormed := wellFormed_markedBy (by
    simp only [List.forall_mem_cons]
    exact ⟨.flag _ (by simp), .references (by decide) (by decide) (by simp), by simp⟩)
  have unbracketed : keyed.Unbracketed := unbracketed_markedBy (by
    simp [Modifier.literals])
  ⟨⟨formed, unbracketed⟩, literal_tiers_agree_iff formed unbracketed fun _ => 0⟩

/-- A column that is unique under a name. -/
def namedUnique : Table := markedBy [.flag .unique [.string '\'' "owner_once"]]

/-- A name for the uniqueness of a column hides the mark from a coarse reading. -/
theorem named_unique_splits_tiers :
    namedUnique.WellFormed ∧
      ∃ structural coarse : Schema Int, ∃ first second : SchemaAtlas.Table Int,
        (Fluent.readSchema Config.default (fun _ => 0) namedUnique.text).outcome = .ok structural ∧
        (Scan.readSchema Config.default (fun _ => 0) namedUnique.text).outcome = .ok coarse ∧
        structural.tables = [first] ∧ coarse.tables = [second] ∧
        first.columns.map (·.isUnique) = [true] ∧ second.columns.map (·.isUnique) = [false] := by
  have formed : namedUnique.WellFormed := wellFormed_markedBy (by
    simp only [List.forall_mem_cons]
    exact ⟨.flag _ (by simpa using .string (isInside_of_words (by decide))), by simp⟩)
  have unbracketed : namedUnique.Unbracketed := unbracketed_markedBy (by
    simpa [Modifier.literals] using (by decide : '(' ∉ (Literal.string '\'' "owner_once").text))
  obtain ⟨structural, read, first, single, described⟩ := formed.readSchema_text fun _ => (0 : Int)
  obtain ⟨coarse, scanned, second, alone, found⟩ := formed.scan_text unbracketed fun _ => (0 : Int)
  refine ⟨formed, structural, coarse, first, second, read, scanned, single, alone, ?_, ?_⟩
  · obtain ⟨column, rest, unique, others, same⟩ := List.forall₂_cons_left_iff.mp described.columns
    cases others
    simp [same, unique.isUnique, Column.marks, Modifier.flag?]
  · obtain ⟨column, rest, unique, others, same⟩ := List.forall₂_cons_left_iff.mp found.columns
    cases others
    simp [same, unique.isUnique, Column.marks, Modifier.isBare]

end SchemaAtlas.Fluent.Written
