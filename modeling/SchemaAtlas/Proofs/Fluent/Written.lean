import SchemaAtlas.Proofs.Fluent.Reads
import SchemaAtlas.Schema.Position
import SchemaAtlas.Schema.Table
import SchemaAtlas.Types.Defaults

/-!
Written tables that are well formed, and the expressions that they are read as.
-/

set_option autoImplicit false

namespace SchemaAtlas.Fluent.Written

open Script Text

/-- What stands between two quotes of a string without escapes. -/
structure IsInside (quote : Char) (cs : List Char) : Prop where
  quotes : quote = '\'' ∨ quote = '"'
  unquoted : quote ∉ cs
  plain : ∀ c ∈ cs, c ≠ '\n' ∧ c ≠ '\r' ∧ c ≠ '\\'

namespace Literal

inductive WellFormed : Literal → Prop
  | string {quote : Char} {text : String} (inside : IsInside quote text.toList) :
      WellFormed (.string quote text)
  | number {text : String} (numeral : IsNumeral text.toList) : WellFormed (.number text)
  | constant (value : Constant) : WellFormed (.constant value)
  | array {elements : List Literal} (each : ∀ element ∈ elements, WellFormed element) :
      WellFormed (.array elements)
  | object {entries : List (String × Literal)} (names : ∀ entry ∈ entries, IsName entry.1)
      (each : ∀ entry ∈ entries, WellFormed entry.2) : WellFormed (.object entries)

end Literal

mutual

/-- The expression that a literal is read as. -/
def Literal.expr : Literal → Expr
  | .string _ text => .string text
  | .number text => .number text
  | .constant value => .constant value
  | .array elements => .array (elementExprs elements)
  | .object entries => .object (entryExprs entries)

def elementExprs : List Literal → List Expr
  | [] => []
  | element :: elements => element.expr :: elementExprs elements

def entryExprs : List (String × Literal) → List (Entry Expr)
  | [] => []
  | (key, value) :: entries => .property key value.expr :: entryExprs entries

end

theorem IsInside.reads {quote : Char} {text : String} (inside : IsInside quote text.toList) :
    Reads (·.expr) (quote :: (text.toList ++ [quote])) (.string text) := by
  simpa using Reads.string inside.quotes inside.unquoted inside.plain

theorem reads_elements {elements : List Literal}
    (each : ∀ element ∈ elements, Reads (·.expr) element.text element.expr) :
    List.Forall₂ (Reads (·.expr)) (elementTexts elements) (elementExprs elements) := by
  induction elements with
  | nil => exact .nil
  | cons element elements ih =>
    exact .cons (each element (.head _)) (ih fun other member => each other (.tail _ member))

theorem reads_entries {entries : List (String × Literal)} (names : ∀ entry ∈ entries, IsName entry.1)
    (each : ∀ entry ∈ entries, Reads (·.expr) entry.2.text entry.2.expr) :
    List.Forall₂ (Reads Rules.objectEntry) (entryTexts entries) ((entryExprs entries).map some) := by
  induction entries with
  | nil => exact .nil
  | cons entry entries ih =>
    exact .cons ((each entry (.head _)).property (names entry (.head _)))
      (ih (fun other member => names other (.tail _ member)) fun other member =>
        each other (.tail _ member))

theorem Literal.WellFormed.reads {literal : Literal} (formed : literal.WellFormed) :
    Reads (·.expr) literal.text literal.expr := by
  induction formed with
  | string inside => exact inside.reads
  | @number text numeral => simpa [Literal.text, Literal.expr] using Reads.number numeral
  | constant value => exact .constant value
  | array _ ih => exact .array (reads_elements ih)
  | object names _ ih => exact .object (reads_entries names ih)

theorem Flag.isName_name (flag : Flag) : IsName flag.name := by
  cases flag <;> decide

namespace Modifier

inductive WellFormed : Modifier → Prop
  | flag (kind : Flag) {arguments : List Literal}
      (each : ∀ argument ∈ arguments, argument.WellFormed) : WellFormed (.flag kind arguments)
  | references {target : ColumnReference} {options : List Literal} (table : IsName target.table)
      (column : IsName target.column) (each : ∀ option ∈ options, option.WellFormed) :
      WellFormed (.references target options)

def argumentExprs : Modifier → List Expr
  | .flag _ arguments => elementExprs arguments
  | .references target options =>
    .arrow [] (.member (.identifier target.table) target.column) :: elementExprs options

variable {modifier : Modifier}

theorem isName_name (modifier : Modifier) : IsName modifier.name := by
  cases modifier with
  | flag kind => exact kind.isName_name
  | references => exact (by decide : IsName "references")

theorem WellFormed.reads_arguments (formed : modifier.WellFormed) :
    List.Forall₂ (Reads (·.expr)) modifier.argumentTexts modifier.argumentExprs := by
  cases formed with
  | flag kind each => exact reads_elements fun argument member => (each argument member).reads
  | references table column each =>
    exact .cons (.arrow table column) (reads_elements fun option member => (each option member).reads)

/-- The call of a modifier on a value. -/
def call (value : Expr) (modifier : Modifier) : Expr :=
  .call (.member value modifier.name) modifier.argumentExprs

end Modifier

theorem readsSteps_modifiers {modifiers : List Modifier}
    (formed : ∀ modifier ∈ modifiers, modifier.WellFormed) :
    ReadsSteps (modifiers.flatMap fun modifier => '.' :: modifier.text)
      fun value => modifiers.foldl Modifier.call value := by
  induction modifiers with
  | nil => exact .nil
  | cons modifier modifiers ih =>
    have first := ReadsSteps.method modifier.isName_name (formed modifier (.head _)).reads_arguments
    exact first.append (ih fun other member => formed other (.tail _ member))

namespace Column

structure WellFormed (column : Column) : Prop where
  key : IsName column.key
  builder : IsName column.builder
  name : IsInside column.quote column.name.toList
  modifiers : ∀ modifier ∈ column.modifiers, modifier.WellFormed

def expr (column : Column) : Expr :=
  column.modifiers.foldl Modifier.call (.call (.identifier column.builder) [.string column.name])

def entry (column : Column) : Entry Expr := .property column.key column.expr

theorem WellFormed.reads {column : Column} (formed : column.WellFormed) :
    Reads Rules.objectEntry column.text (some column.entry) := by
  have value := Reads.called formed.builder (.cons formed.name.reads .nil)
    (readsSteps_modifiers formed.modifiers) .enclosed
  have whole := Reads.property value formed.key
  simpa [commaText, text, behind, entry, expr] using whole

/-- The type of a column: the one of its builder, or else the builder itself. -/
def type (column : Column) : String :=
  ((TypeMap.drizzle.resolve column.builder).filter (· ≠ "")).getD column.builder

/-- A column stands for a written one, if certain of its modifiers count. -/
structure IsColumn (counts : Modifier → Bool) (written : Column) (column : SchemaAtlas.Column) :
    Prop where
  name : column.name = written.key
  type : column.type = written.type
  isPrimaryKey : column.isPrimaryKey = written.marks counts .primaryKey
  isUnique : column.isUnique = written.marks counts .unique
  isNotNull : column.isNotNull = written.marks counts .notNull
  references : column.references = written.reference? counts
  defaultValue : column.defaultValue = none

theorem WellFormed.ofFields? {column : Column} (formed : column.WellFormed)
    (counts : Modifier → Bool) :
    ∃ built, SchemaAtlas.Column.ofFields? column.key column.type (column.marks counts .primaryKey)
        (column.marks counts .unique) (column.marks counts .notNull) (column.reference? counts)
        none = .ok built ∧
      column.IsColumn counts built := by
  have named : column.key ≠ "" := fun same => formed.key.word.1 (by simp [same])
  have typed : column.type ≠ "" := by
    unfold type
    cases found : (TypeMap.drizzle.resolve column.builder).filter (· ≠ "") with
    | none => exact fun same => formed.builder.word.1 (by simp_all)
    | some known => simpa using (Option.filter_eq_some_iff.mp found).2
  exact ⟨_, SchemaAtlas.Column.ofFields?_ok named typed _ _ _ _ _, ⟨rfl, rfl, rfl, rfl, rfl, rfl, rfl⟩⟩

end Column

namespace Table

/-- A table stands for a written one, if certain of the modifiers count. -/
structure IsTable {R : Type} [Coordinate R] (counts : Modifier → Bool) (draws : Nat → R)
    (written : Table) (table : SchemaAtlas.Table R) : Prop where
  id : table.id = written.id
  name : table.name = written.name
  columns : List.Forall₂ (Column.IsColumn counts) written.columns table.columns
  indexes : table.indexes = []
  position : table.position = Layout.default.position (draws 0) 0

structure WellFormed (table : Table) : Prop where
  id : IsName table.id
  name : IsInside table.quote table.name.toList
  columns : ∀ column ∈ table.columns, column.WellFormed

/-- The value of the variable of a table. -/
def expr (table : Table) : Expr :=
  .call (.identifier "pgTable") [.string table.name, .object (table.columns.map Column.entry)]

theorem WellFormed.reads {table : Table} (formed : table.WellFormed) (place : Script.Place) :
    Reads (·.exprAt place) ("pgTable(".toList ++ table.behind) table.expr := by
  have entries : List.Forall₂ (Reads Rules.objectEntry) (table.columns.map Column.text)
      ((table.columns.map Column.entry).map some) := by
    rw [List.forall₂_map_left_iff, List.forall₂_map_right_iff, List.forall₂_map_right_iff,
      List.forall₂_same]
    exact fun column member => (formed.columns column member).reads
  have value := Reads.called (by decide : IsName "pgTable")
    (.cons formed.name.reads (.cons (.object entries) .nil)) .nil place
  simpa [commaText, behind, expr] using value

end Table

end SchemaAtlas.Fluent.Written
