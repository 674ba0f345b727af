import SchemaAtlas.Config
import SchemaAtlas.Fluent.Schema
import SchemaAtlas.Proofs.Fluent.Chains
import SchemaAtlas.Proofs.Fluent.Spreads
import SchemaAtlas.Proofs.Fluent.Written
import SchemaAtlas.Proofs.Journaled
import SchemaAtlas.Proofs.Links
import SchemaAtlas.Proofs.Registry
import SchemaAtlas.Proofs.Script.Statement

/-!
A written table read as a script: the table of its name with a column for each entry, which all
modifiers of the column mark, whatever their arguments.
-/

set_option autoImplicit false

namespace SchemaAtlas.Script

open Text

theorem IsName.isVariable {name : String} (isName : IsName name) : IsVariable name where
  held := isName.word.1
  parts c member := isNamePart_of_isWord (isName.word.2 c member)
  undigited := isName.undigited
  other same := isName.free (same ▸ by decide)

/-- The text of an exported constant. -/
def constantText (name value : List Char) : List Char :=
  ['e', 'x', 'p', 'o', 'r', 't'] ++ ' ' ::
    (['c', 'o', 'n', 's', 't'] ++ ' ' :: (name ++ ' ' :: '=' :: ' ' :: value))

/-- A script that is an exported constant, with a semicolon behind it or without. -/
theorem Reads.ofText? {cs : List Char} {value : Expr} (reads : Reads (·.exprAt .exposed) cs value)
    {name : String} (isVariable : IsVariable name) {ending : List Char}
    (ends : ending = [] ∨ ending = [';']) :
    Module.ofText? (constantText name.toList (cs ++ ending)) =
      .ok { declarations := [{ name, init := some value, exported := true }] } := by
  obtain ⟨tokens, readsAs⟩ := reads
  obtain ⟨rest, last, delimited, spelled⟩ :
      ∃ rest, Rules.EndsScript rest ∧ Delimited ending ∧ Spells [] ending rest := by
    rcases ends with rfl | rfl
    · exact ⟨[], .inl rfl, by simp [Delimited], .nil _⟩
    · exact ⟨_, .inr ⟨[], rfl⟩, .cons (by decide) _, Spells.solo [] ';' (by decide) (.nil _)⟩
  have parts (cs : List Char) : EndsName (' ' :: cs) := .cons (by decide) cs
  have equals := Spells.equals [' '] (.space [] (readsAs.spells delimited spelled [' ']))
  have named := Spells.run [' '] isVariable.held isVariable.parts isVariable.undigited (parts _)
    (.space [] equals)
  have constant := Spells.word [' '] (by decide : IsWordText ['c', 'o', 'n', 's', 't']) (by decide)
    (parts _) (.space [] named)
  have exports := Spells.word [] (by decide : IsWordText ['e', 'x', 'p', 'o', 'r', 't']) (by decide)
    (parts _) (.space [] constant)
  have whole : Spells [] (constantText name.toList (cs ++ ending))
      ({ kind := .word, text := "export" } :: (Rules.constantTokens name ++ (tokens [' '] ++ rest))) := by
    simpa [constantText, Rules.constantTokens] using exports
  have read := statements?_exported isVariable.other last fun depth enough => by
    have within : (tokens [' ']).length ≤ (tokens [' '] ++ rest).length := by simp
    exact readsAs.reads [' '] (Nat.le_succ_of_le (Nat.le_trans within enough)) last.stops
  rw [Module.ofText?, whole.tokens (by simp [constantText]), read]
  rfl

end SchemaAtlas.Script

namespace SchemaAtlas.Fluent

open Script Text

namespace Written

namespace Table

variable {table : Table}

/-- The declaration of the variable of a table. -/
def declaration (table : Table) : Declaration :=
  { name := table.id, init := some table.expr, exported := true }

theorem text_eq (table : Table) :
    table.text = constantText table.id.toList ("pgTable(".toList ++ table.behind) := by
  have front : "export const ".toList = ['e', 'x', 'p', 'o', 'r', 't'] ++ ' ' ::
      (['c', 'o', 'n', 's', 't'] ++ [' ']) := by simp
  have middle : " = pgTable(".toList = ' ' :: '=' :: ' ' :: "pgTable(".toList := by simp
  unfold text
  rw [front, middle]
  simp only [constantText, List.append_assoc, List.cons_append, List.nil_append]

theorem WellFormed.ofText? (formed : table.WellFormed) :
    Module.ofText? table.text = .ok { declarations := [table.declaration] } := by
  have read := (formed.reads .exposed).ofText? formed.id.isVariable (.inl rfl)
  rw [List.append_nil] at read
  rw [text_eq]
  exact read

end Table

/-- The modifier as a part of a chain. -/
def Modifier.link (modifier : Modifier) : Fluent.Modifier :=
  { name := modifier.name, arguments := modifier.argumentExprs }

namespace Column

variable {column : Column}

def chain (column : Column) : Chain :=
  { base := column.builder, arguments := [.string column.name]
    modifiers := column.modifiers.map Modifier.link }

theorem ofExpr?_expr (column : Column) (builders : List String) :
    Chain.ofExpr? builders column.expr = some column.chain := by
  have called : column.expr =
      Chain.callAll (.call (.identifier column.builder) [.string column.name])
        (column.modifiers.map Modifier.link) := by
    rw [Chain.callAll, List.foldl_map]
    rfl
  have base : Chain.IsBaseCall builders column.builder [.string column.name] _ := .ofName
  rw [called, Chain.ofExpr?_callAll base.ofExpr?]
  rfl

theorem has_chain (column : Column) (flag : Flag) :
    column.chain.has flag.name = column.marks (fun _ => true) flag := by
  have each (modifier : Modifier) : (modifier.name = flag.name) = (modifier.flag? = some flag) := by
    cases modifier with
    | flag kind => cases kind <;> cases flag <;> simp [Modifier.name, Modifier.flag?, Flag.name]
    | references => cases flag <;> simp [Modifier.name, Modifier.flag?, Flag.name]
  simp [chain, Chain.has, marks, Modifier.link, each, Function.comp_def]

theorem reference?_chain (column : Column) :
    column.chain.reference? {} = column.reference? fun _ => true := by
  simp only [chain, Chain.reference?, reference?, List.filter_true]
  induction column.modifiers with
  | nil => rfl
  | cons modifier modifiers ih =>
    cases modifier with
    | flag kind =>
      have other : kind.name ≠ "references" := by cases kind <;> decide
      simpa [Modifier.link, Modifier.name, other, List.findSome?_cons, Modifier.target?] using ih
    | references target options =>
      simp [Modifier.link, Modifier.name, List.findSome?_cons, Modifier.target?,
        Modifier.argumentExprs, Chain.referenceOf?]

theorem defaultValue?_chain (column : Column) : column.chain.defaultValue? {} = none := by
  have each (modifier : Modifier) : Chain.defaultOf? {} modifier.link = none := by
    cases modifier with
    | flag kind => cases kind <;> rfl
    | references => rfl
  simp [chain, Chain.defaultValue?, each]

/-- All modifiers of a column count when it is read from a script. -/
theorem WellFormed.column?_expr (formed : column.WellFormed) (builders : List String) :
    ∃ built, column? {} TypeMap.drizzle.provider builders column.key column.expr = .ok (some built) ∧
      column.IsColumn (fun _ => true) built := by
  obtain ⟨built, found, described⟩ := formed.ofFields? fun _ => true
  have typed : column.chain.columnType TypeMap.drizzle.provider = .ok column.type := rfl
  refine ⟨built, ?_, described⟩
  rw [column?, ofExpr?_expr]
  have flags := column.has_chain
  have primary : column.chain.has "primaryKey" = _ := flags .primaryKey
  have unique : column.chain.has "unique" = _ := flags .unique
  have notNull : column.chain.has "notNull" = _ := flags .notNull
  simp only [Chain.column, typed, bind, Except.bind, primary, unique, notNull, reference?_chain,
    defaultValue?_chain, found]
  rfl

end Column

variable {R : Type} [Coordinate R] {table : Table}

theorem readColumns_entries {columns : List Column} (formed : ∀ column ∈ columns, column.WellFormed)
    (id : String) (builders : List String) :
    (readColumns (Config.default : Config R) id builders (columns.map Column.entry)).Returns
      (List.Forall₂ (Column.IsColumn fun _ => true) columns) := by
  induction columns with
  | nil => exact .pure .nil
  | cons column columns ih =>
    obtain ⟨built, found, described⟩ := (formed column (.head _)).column?_expr builders
    refine (Journaled.Returns.ofExcept found).bind fun _ same => ?_
    rw [same]
    exact (ih fun other member => formed other (.tail _ member)).bind fun more later =>
      .pure (.cons described later)

/-- One table is registered, and one number is drawn for it. -/
def Table.Registered (counts : Modifier → Bool) (draws : Nat → R) (written : Table)
    (registry : Registry R) : Prop :=
  ∃ table, registry = { tables := [table] } ∧ written.IsTable counts draws table

namespace Table.WellFormed

theorem addTable_declaration (formed : table.WellFormed) (draws : Nat → R) :
    (addTable Config.default draws {} ({}, 0) table.declaration).Returns
      (table.Registered (fun _ => true) draws ·.1) := by
  have whole : Groups.flatten [] (table.columns.map Column.entry) =
      table.columns.map Column.entry := by
    refine Groups.flatten_spreadless fun entry member => ?_
    obtain ⟨column, -, rfl⟩ := List.mem_map.mp member
    rfl
  have read : (readColumns (Config.default : Config R) _ _ _).Returns _ :=
    readColumns_entries formed.columns table.id []
  rw [← whole] at read
  refine read.bind fun columns described => ?_
  refine (Journaled.Returns.record _).bind fun _ _ => ?_
  refine (Registry.register_returns _ _).bind fun registry same => .pure ?_
  exact ⟨_, same, rfl, rfl, described, rfl, rfl⟩

/-- A written table is read as a script that declares it. -/
theorem readSchema_text (formed : table.WellFormed) (draws : Nat → R) :
    (Fluent.readSchema Config.default draws table.text).Returns fun schema =>
      ∃ read, schema.tables = [read] ∧ table.IsTable (fun _ => true) draws read := by
  have surroundings : Surroundings.ofDeclarations {} [table.declaration] = {} := rfl
  refine (Journaled.Returns.ofExcept formed.ofText?).bind fun script same => ?_
  rw [same, schemaOf]
  have collected : (collect Config.default draws {} { declarations := [table.declaration] }).Returns
      (table.Registered (fun _ => true) draws) := by
    have added := formed.addTable_declaration draws
    have exported : Module.exported { declarations := [table.declaration] } =
        [table.declaration] := rfl
    rw [collect, exported, List.foldlM_cons]
    simp only [List.foldlM_nil, bind_pure]
    exact added.bind fun (registry, _) registered => .pure registered
  refine collected.bind fun registry ⟨read, built, described⟩ => ?_
  have merged : registry.merged = [read] := by
    rw [built]
    simp [Registry.merged, Registry.pendingIndexes, SchemaAtlas.Table.addIndexes]
  simp only [merged]
  exact (Relationship.settle_warn _ _ _).bind fun relationships _ => .pure ⟨read, rfl, described⟩

end Table.WellFormed

end Written

end SchemaAtlas.Fluent
