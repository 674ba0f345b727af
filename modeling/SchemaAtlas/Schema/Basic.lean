import SchemaAtlas.Schema.Table
import SchemaAtlas.Schema.Relationship

/-!
Schemas: tables, relationships and enumerations, and their counts.
-/

set_option autoImplicit false

namespace SchemaAtlas

structure Enumeration where
  name : String
  values : List String := []
  deriving DecidableEq, Repr

structure Schema (R : Type) where
  tables : List (Table R) := []
  relationships : List Relationship := []
  enums : List Enumeration := []
  deriving DecidableEq, Repr

structure SchemaStats where
  tables : Nat
  relationships : Nat
  columns : Nat
  enums : Nat
  indexes : Nat
  deriving DecidableEq, Repr

namespace Schema

variable {R : Type}

/-- The first table of an id. -/
def table? (schema : Schema R) (id : String) : Option (Table R) :=
  schema.tables.find? (·.id = id)

/-- The first enumeration of a name. -/
def enum? (schema : Schema R) (name : String) : Option Enumeration :=
  schema.enums.find? (·.name = name)

def tableIds (schema : Schema R) : List String := schema.tables.map (·.id)

/-- A schema is empty when it has neither tables nor enumerations. -/
def isEmpty (schema : Schema R) : Bool := schema.tables.isEmpty && schema.enums.isEmpty

def stats (schema : Schema R) : SchemaStats where
  tables := schema.tables.length
  relationships := schema.relationships.length
  columns := (schema.tables.flatMap (·.columns)).length
  enums := schema.enums.length
  indexes := (schema.tables.flatMap (·.indexes)).length

end Schema

end SchemaAtlas
