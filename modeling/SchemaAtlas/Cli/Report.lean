import SchemaAtlas.Cli.Console
import SchemaAtlas.Decimal.Shortest
import SchemaAtlas.Extraction.Result
import SchemaAtlas.Listing

/-!
Schemas and results as the command line shows them.
-/

set_option autoImplicit false

namespace SchemaAtlas.Cli

variable {R : Type}

def commas (names : List String) : String := joinWith ", " names

def columnLine (column : Column) : String :=
  let flags := column.flagsText
  "  - " ++ column.name ++ ": " ++ column.type ++ (if flags = "" then "" else " [" ++ flags ++ "]") ++
    (match column.references with
      | some reference => " -> " ++ reference.qualifiedName
      | none => "") ++
    (match column.defaultValue with
      | some value => " = " ++ value
      | none => "")

def indexLine (index : Index) : String :=
  "  * " ++ (if index.isUnique then "unique index" else "index") ++ " " ++ index.name ++ " (" ++
    commas index.columns ++ ")"

def enumLine (enum : Enumeration) : String := "  - " ++ enum.name ++ ": " ++ commas enum.values

def relationshipLine (r : Relationship) : String :=
  "  - " ++ r.source ++ "." ++ r.sourceColumn ++ " -> " ++ r.target ++ "." ++ r.targetColumn

def heading (console : Console) (color : Color) (text : String) : String :=
  "\n" ++ console.paint color text

def tableTexts (console : Console) (table : Table R) : List String :=
  let title := if table.name = table.id then table.id else table.id ++ " (" ++ table.name ++ ")"
  heading console .cyan title :: table.columns.map columnLine ++ table.indexes.map indexLine

/-- Lines under a heading, or nothing if there are none. -/
def underHeading (console : Console) (color : Color) (title : String) (lines : List String) :
    List String :=
  if lines.isEmpty then [] else heading console color title :: lines

/-- A schema as an indented listing of its tables, enumerations and relationships. -/
def prettyTexts (console : Console) (schema : Schema R) : List String :=
  schema.tables.flatMap (tableTexts console) ++
    underHeading console .magenta "Enums" (schema.enums.map enumLine) ++
    underHeading console .yellow "Relationships" (schema.relationships.map relationshipLine)

def columnRow (table : String) (column : Column) : List String :=
  [table, column.name, column.type, column.flagsText,
    (column.references.map ColumnReference.qualifiedName).getD "", column.defaultValue.getD ""]

def relationshipRow (r : Relationship) : List String :=
  [r.id, r.source, r.sourceColumn, r.target, r.targetColumn]

/-- A listing with an empty line before it, or nothing if it has no rows. -/
def listing? (headings : List String) (rows : List (List String)) : List String :=
  if rows.isEmpty then [] else ["", joinWith "\n" (Listing.render headings rows)]

/-- A schema as listings of its columns, relationships and enumerations. -/
def listingTexts (schema : Schema R) : List String :=
  joinWith "\n" (Listing.render ["Table", "Column", "Type", "Flags", "References", "Default"]
      (schema.tables.flatMap fun table => table.columns.map (columnRow table.id))) ::
    listing? ["Relationship", "Source", "Column", "Target", "Column"]
      (schema.relationships.map relationshipRow) ++
    listing? ["Enum", "Values"] (schema.enums.map fun enum => [enum.name, commas enum.values])

/-- The tables around one table, sorted by name. -/
structure Neighbours where
  table : String
  referenced : List String
  referencing : List String
  related : List String
  deriving DecidableEq, Repr

namespace Neighbours

def sorted (names : List String) : List String := names.mergeSort (· ≤ ·)

def ofGraph? (graph : Graph) (table : String) : Option Neighbours :=
  if graph.hasNode table then
    some {
      table, referenced := sorted (graph.referenced table)
      referencing := sorted (graph.referencing table), related := sorted (graph.related table) }
  else none

def toJson (neighbours : Neighbours) : Json R :=
  let names (members : List String) : Json R := .array (members.map .string)
  .object
    [("table", .string neighbours.table), ("references", names neighbours.referenced),
      ("referencedBy", names neighbours.referencing), ("related", names neighbours.related)]

def texts (console : Console) (neighbours : Neighbours) : List String :=
  let orDash (names : List String) : String := if names.isEmpty then "-" else commas names
  [console.paint .cyan ("\nTables connected to " ++ neighbours.table ++ ":\n"),
    "References:    " ++ orDash neighbours.referenced,
    "Referenced by: " ++ orDash neighbours.referencing,
    "Related:       " ++ orDash neighbours.related]

end Neighbours

/-- The warnings of a result above the informative ones, numbered. -/
def warningOutputs (console : Console) (warnings : Diagnostics) : List Output :=
  let shown := warnings.filter (·.severity ≠ .info)
  if shown.isEmpty then []
  else
    console.warning (toString shown.length ++ " warning(s):") ++ shown.mapIdx fun n warning =>
      let context := match warning.context with
        | some context => if context = "" then "" else " (" ++ context ++ ")"
        | none => ""
      let text := "  " ++ toString (n + 1) ++ ". " ++ warning.message ++ context
      if console.quiet then .err text else .out text

/-- A document with two blanks for each level. -/
def document (json : Json Float) : String := json.render { indent := some 2 } Decimal.shortest

def exportText (result : ExtractionResult Float) : String :=
  let graph := match result.graph? with
    | .ok graph => [("graph", graph.toJson)]
    | .error _ => []
  document (.object (result.members ++ graph))

end SchemaAtlas.Cli
