import SchemaAtlas.Json
import SchemaAtlas.Schema.Basic

/-!
Schemas as JSON documents. References and defaults are left out where a column has none.
-/

set_option autoImplicit false

namespace SchemaAtlas

variable {R : Type}

def ColumnReference.toJson (reference : ColumnReference) : Json R :=
  .object [("table", .string reference.table), ("column", .string reference.column)]

def Column.toJson (column : Column) : Json R :=
  .object
    ([("name", .string column.name), ("type", .string column.type),
        ("isPrimaryKey", .bool column.isPrimaryKey), ("isUnique", .bool column.isUnique),
        ("isNotNull", .bool column.isNotNull)] ++
      (match column.references with
        | some reference => [("references", reference.toJson)]
        | none => []) ++
      (match column.defaultValue with
        | some value => [("defaultValue", .string value)]
        | none => []))

def Index.toJson (index : Index) : Json R :=
  .object
    [("name", .string index.name), ("columns", .array (index.columns.map .string)),
      ("isUnique", .bool index.isUnique)]

def Position.toJson (position : Position R) : Json R :=
  .object [("x", .number position.x), ("y", .number position.y)]

def Table.toJson (table : Table R) : Json R :=
  .object
    [("id", .string table.id), ("name", .string table.name),
      ("columns", .array (table.columns.map Column.toJson)),
      ("indexes", .array (table.indexes.map Index.toJson)), ("position", table.position.toJson)]

def Relationship.toJson (relationship : Relationship) : Json R :=
  .object
    [("id", .string relationship.id), ("source", .string relationship.source),
      ("target", .string relationship.target),
      ("sourceColumn", .string relationship.sourceColumn),
      ("targetColumn", .string relationship.targetColumn)]

def Enumeration.toJson (enum : Enumeration) : Json R :=
  .object [("name", .string enum.name), ("values", .array (enum.values.map .string))]

def Schema.toJson (schema : Schema R) : Json R :=
  .object
    [("tables", .array (schema.tables.map Table.toJson)),
      ("relationships", .array (schema.relationships.map Relationship.toJson)),
      ("enums", .array (schema.enums.map Enumeration.toJson))]

def SchemaStats.toJson (stats : SchemaStats) : Json R :=
  .object
    [("tableCount", .integer stats.tables), ("relationshipCount", .integer stats.relationships),
      ("columnCount", .integer stats.columns), ("enumCount", .integer stats.enums),
      ("indexCount", .integer stats.indexes)]

end SchemaAtlas
