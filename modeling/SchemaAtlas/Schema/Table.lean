import SchemaAtlas.Schema.Column
import SchemaAtlas.Schema.Position

/-!
Tables with their columns and indexes.
-/

set_option autoImplicit false

namespace SchemaAtlas

/-- An index over columns, whose order is the order of the key. -/
structure Index where
  name : String
  columns : List String := []
  isUnique : Bool := false
  deriving DecidableEq, Repr

/-- A table. Relationships name it by its `id`; `name` is what it is called in the database. -/
structure Table (R : Type) where
  id : String
  name : String
  columns : List Column := []
  indexes : List Index := []
  position : Position R
  deriving DecidableEq, Repr

namespace Table

variable {R : Type}

/-- The first column of a name. -/
def column? (table : Table R) (name : String) : Option Column :=
  table.columns.find? (·.name = name)

def hasColumn (table : Table R) (name : String) : Bool := (table.column? name).isSome

def primaryKeys (table : Table R) : List Column := table.columns.filter (·.isPrimaryKey)

/-- The table with further indexes behind its own. -/
def addIndexes (table : Table R) (indexes : List Index) : Table R :=
  { table with indexes := table.indexes ++ indexes }

end Table

end SchemaAtlas
