import SchemaAtlas.Schema.Column
import SchemaAtlas.Script.Expr

/-!
Tables in calls as they are written: an exported variable, and a column for each entry of an object,
which is a builder with modifiers chained to it. Enumerations are written with their values in an
array.
-/

set_option autoImplicit false

namespace SchemaAtlas.Fluent.Written

open Script

/-- Items with commas between them, the first of which stands behind a lead. -/
def commaText (lead : List Char) : List (List Char) → List Char
  | [] => []
  | item :: items => lead ++ (item ++ items.flatMap fun item => ',' :: ' ' :: item)

/-- An argument that names no variable. -/
inductive Literal
  | string (quote : Char) (text : String)
  | number (text : String)
  | constant (value : Constant)
  | array (elements : List Literal)
  | object (entries : List (String × Literal))
  deriving Repr

mutual

def Literal.text : Literal → List Char
  | .string quote text => quote :: (text.toList ++ [quote])
  | .number text => text.toList
  | .constant value => value.word.toList
  | .array elements => '[' :: (commaText [] (elementTexts elements) ++ [']'])
  | .object entries => '{' :: (commaText [' '] (entryTexts entries) ++ [' ', '}'])

def elementTexts : List Literal → List (List Char)
  | [] => []
  | element :: elements => element.text :: elementTexts elements

def entryTexts : List (String × Literal) → List (List Char)
  | [] => []
  | (key, value) :: entries =>
    (key.toList ++ ':' :: ' ' :: value.text) :: entryTexts entries

end

/-- What a column may be marked as. -/
inductive Flag
  | primaryKey
  | unique
  | notNull
  deriving DecidableEq, Repr

def Flag.name : Flag → String
  | .primaryKey => "primaryKey"
  | .unique => "unique"
  | .notNull => "notNull"

inductive Modifier
  | flag (kind : Flag) (arguments : List Literal)
  /-- A reference to another column, with options or without. -/
  | references (target : ColumnReference) (options : List Literal)
  deriving Repr

namespace Modifier

def name : Modifier → String
  | .flag kind _ => kind.name
  | .references _ _ => "references"

def argumentTexts : Modifier → List (List Char)
  | .flag _ arguments => elementTexts arguments
  | .references target options =>
    ("() => ".toList ++ target.table.toList ++ '.' :: target.column.toList) :: elementTexts options

def text (modifier : Modifier) : List Char :=
  modifier.name.toList ++ '(' :: (commaText [] modifier.argumentTexts ++ [')'])

def flag? : Modifier → Option Flag
  | .flag kind _ => some kind
  | .references _ _ => none

def target? : Modifier → Option ColumnReference
  | .flag _ _ => none
  | .references target _ => some target

/-- Nothing stands between the brackets but the target of a reference. -/
def isBare : Modifier → Bool
  | .flag _ arguments => arguments.isEmpty
  | .references _ options => options.isEmpty

end Modifier

structure Column where
  key : String
  builder : String
  /-- The name in the database, and the quotes around it. -/
  quote : Char := '\''
  name : String
  modifiers : List Modifier := []
  deriving Repr

namespace Column

/-- The text of a column behind the opening bracket of its builder. -/
def behind (column : Column) : List Char :=
  column.quote :: (column.name.toList ++ column.quote :: ')' ::
    column.modifiers.flatMap fun modifier => '.' :: modifier.text)

def text (column : Column) : List Char :=
  column.key.toList ++ ':' :: ' ' :: (column.builder.toList ++ '(' :: column.behind)

/-- Whether one of the modifiers that count sets a flag. -/
def marks (counts : Modifier → Bool) (column : Column) (flag : Flag) : Bool :=
  (column.modifiers.filter counts).any (·.flag? = some flag)

/-- The target of the first reference among the modifiers that count. -/
def reference? (counts : Modifier → Bool) (column : Column) : Option ColumnReference :=
  (column.modifiers.filter counts).findSome? Modifier.target?

end Column

structure Table where
  id : String
  /-- The name in the database, and the quotes around it. -/
  quote : Char := '\''
  name : String
  columns : List Column := []
  deriving Repr

/-- The text of a table behind the opening bracket of its constructor. -/
def Table.behind (table : Table) : List Char :=
  table.quote :: (table.name.toList ++ table.quote :: ',' :: ' ' :: '{' ::
    (commaText [' '] (table.columns.map Column.text) ++ [' ', '}', ')']))

def Table.text (table : Table) : List Char :=
  "export const ".toList ++ table.id.toList ++ " = pgTable(".toList ++ table.behind

structure Enum where
  id : String
  /-- The name in the database. -/
  name : String
  values : List String := []
  deriving Repr

namespace Enum

def valueText (value : String) : List Char := '\'' :: (value.toList ++ ['\''])

/-- The text of an enumeration behind the opening bracket of its constructor. -/
def behind (enum : Enum) : List Char :=
  '\'' :: (enum.name.toList ++ '\'' :: ',' :: ' ' :: '[' ::
    (commaText [] (enum.values.map valueText) ++ [']', ')', ';']))

def text (enum : Enum) : List Char :=
  "export const ".toList ++ enum.id.toList ++ " = pgEnum(".toList ++ enum.behind

end Enum

end SchemaAtlas.Fluent.Written
