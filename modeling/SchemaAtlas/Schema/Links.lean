import SchemaAtlas.Dialect
import SchemaAtlas.Journal
import SchemaAtlas.Schema.Relationship
import SchemaAtlas.Schema.Table

/-!
Relationships as a schema may hold them: between tables it has, and without repeated links.
-/

set_option autoImplicit false

namespace SchemaAtlas.Relationship

/-- The relationships that the references of columns stand for, in the order of the columns. -/
def ofReferences {R : Type} (tables : List (Table R)) : List Relationship :=
  tables.flatMap fun table => table.columns.filterMap fun column =>
    column.references.map fun reference =>
      link table.id column.name reference.table reference.column

/-- The first end that is not among the known tables, the source before the target. -/
def missingEnd? (tables : List String) (relationship : Relationship) : Option String :=
  [relationship.source, relationship.target].find? (· ∉ tables)

/-- The fault of a relationship that ends at an unknown table. -/
def unresolvedFault (tables : List String) (relationship : Relationship) (missing : String) :
    Fault :=
  .unresolvedReference
    ("Relationship '" ++ relationship.id ++ "' references unknown table '" ++ missing ++ "'")
    missing tables

/-- The relationships with both ends known, in order. The mode says what happens to the others. -/
def resolve (tables : List String) (mode : ErrorMode) :
    List Relationship → Journaled (List Relationship)
  | [] => return []
  | relationship :: relationships => do
    match relationship.missingEnd? tables, mode with
    | none, _ => return relationship :: (← resolve tables mode relationships)
    | some missing, .fail => Journaled.fail (relationship.unresolvedFault tables missing)
    | some missing, .warn =>
      Journaled.warn (.unresolved "Relationship" missing (some relationship.id))
      resolve tables mode relationships
    | some _, .ignore => resolve tables mode relationships

/-- The relationships whose link is not among `seen` or earlier in the list, in order. -/
def firstLinks (seen : List LinkKey) : List Relationship → List Relationship
  | [] => []
  | relationship :: relationships =>
    if relationship.linkKey ∈ seen then firstLinks seen relationships
    else relationship :: firstLinks (relationship.linkKey :: seen) relationships

/-- The first relationship of every link. -/
def deduplicate (relationships : List Relationship) : List Relationship :=
  firstLinks [] relationships

/-- The relationships of a schema in which every end must be a table. `once` says whether each link
is kept once only. -/
def settle (tables : List String) (mode : ErrorMode) (once : Bool)
    (relationships : List Relationship) : Journaled (List Relationship) := do
  let kept ← resolve tables mode relationships
  return if once then deduplicate kept else kept

end SchemaAtlas.Relationship
