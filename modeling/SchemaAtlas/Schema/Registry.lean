import SchemaAtlas.Journal
import SchemaAtlas.Schema.Table

/-!
The tables of one extraction while they are collected. Indexes found later wait for their table
until the finished tables are asked for.
-/

set_option autoImplicit false

namespace SchemaAtlas

/-- Registered tables in the order in which their ids were first registered, and the indexes that
wait, each with the id of its table. -/
structure Registry (R : Type) where
  tables : List (Table R) := []
  pending : List (String × Index) := []

namespace Registry

variable {R : Type}

def table? (registry : Registry R) (id : String) : Option (Table R) :=
  registry.tables.find? (·.id = id)

def hasTable (registry : Registry R) (id : String) : Bool := registry.tables.any (·.id = id)

def tableIds (registry : Registry R) : List String := registry.tables.map (·.id)

def size (registry : Registry R) : Nat := registry.tables.length

/-- A table put among others: in the place of one with the same id, or at the end. -/
def put (tables : List (Table R)) (table : Table R) : List (Table R) :=
  match tables with
  | [] => [table]
  | other :: tables =>
    if other.id = table.id then table :: tables else other :: put tables table

/-- Registers a table. A table of the same id is replaced, which is reported. -/
def register (registry : Registry R) (table : Table R) : Journaled (Registry R) := do
  if registry.hasTable table.id then Journaled.reportRedeclaration table.id
  return { registry with tables := put registry.tables table }

/-- Lets an index wait for its table, and tells whether the table is registered. If it is not, the
index is dropped with a warning. -/
def attach (registry : Registry R) (id : String) (index : Index) :
    Journaled (Bool × Registry R) := do
  if registry.hasTable id then
    return (true, { registry with pending := registry.pending ++ [(id, index)] })
  else
    Journaled.warn (.unresolved "Index" id (some index.name))
    return (false, registry)

/-- The indexes that wait for a table, in the order in which they came. -/
def pendingIndexes (registry : Registry R) (id : String) : List Index :=
  (registry.pending.filter (·.1 = id)).map (·.2)

/-- The finished tables: each with its own indexes and then those that waited for it. -/
def merged (registry : Registry R) : List (Table R) :=
  registry.tables.map fun table => table.addIndexes (registry.pendingIndexes table.id)

/-- Forgets the tables and the indexes that wait for them. -/
def reset (registry : Registry R) : Registry R := { registry with tables := [], pending := [] }

def text (registry : Registry R) : String :=
  "TableRegistry(tables=" ++ toString registry.size ++ ")"

end Registry

end SchemaAtlas
