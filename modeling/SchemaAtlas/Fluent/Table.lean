import SchemaAtlas.Config
import SchemaAtlas.Fluent.Column
import SchemaAtlas.Fluent.Group
import SchemaAtlas.Fluent.Index
import SchemaAtlas.Journal
import SchemaAtlas.Schema.Basic
import SchemaAtlas.Schema.Registry

/-!
Tables written as calls: a table constructor with a name, an object of columns, and perhaps a
function that lists indexes.
-/

set_option autoImplicit false

namespace SchemaAtlas.Fluent

open Script

/-- What the declarations of a script provide for its tables. -/
structure Surroundings where
  enums : List Enumeration := []
  groups : Groups := []
  /-- Names under which the script calls a table creator. -/
  creators : List String := []
  deriving Repr

/-- The values of an enumeration: its strings that are not empty. -/
def enumValues (elements : List Expr) : List String :=
  elements.filterMap fun element =>
    match element with
    | .string value => if value = "" then none else some value
    | _ => none

def enumeration? (name : String) : List Expr → Option Enumeration
  | .string _ :: .array elements :: _ => some { name, values := enumValues elements }
  | _ => none

namespace Surroundings

def add (keywords : DrizzleKeywords) (surroundings : Surroundings) (declaration : Declaration) :
    Surroundings :=
  match declaration.init with
  | some (.object entries) =>
    { surroundings with
      groups := surroundings.groups ++ [{ name := declaration.name, entries }] }
  | some (.call (.identifier constructor) arguments) =>
    if constructor ∈ keywords.enumConstructors then
      { surroundings with
        enums := surroundings.enums ++ (enumeration? declaration.name arguments).toList }
    else if constructor ∈ keywords.tableCreators then
      { surroundings with creators := surroundings.creators ++ [declaration.name] }
    else surroundings
  | _ => surroundings

def ofDeclarations (keywords : DrizzleKeywords) (declarations : List Declaration) : Surroundings :=
  declarations.foldl (add keywords) {}

end Surroundings

/-- Whether a call of `callee` makes a table: of a table constructor, of a creator by its name or at
once, or of the table method of a schema. -/
def makesTable (keywords : DrizzleKeywords) (creators : List String) : Expr → Bool
  | .identifier name => name ∈ keywords.tableConstructors || name ∈ creators
  | .call (.identifier name) _ => name ∈ keywords.tableCreators
  | .member _ method => method = keywords.schemaTableMethod
  | _ => false

/-- The arguments of the table call of an expression, under the calls chained to it. -/
def tableArguments? (keywords : DrizzleKeywords) (creators : List String) :
    Expr → Option (List Expr)
  | .call (.member object method) arguments =>
    if makesTable keywords creators (.member object method) then some arguments
    else tableArguments? keywords creators object
  | .call callee arguments =>
    if makesTable keywords creators callee then some arguments else none
  | _ => none

/-- The entries of a column object, and the builders that its columns may be called on. -/
def columnEntries? : Expr → Option (List String × List (Entry Expr))
  | .object entries => some ([], entries)
  | .arrow builders (.object entries) => some (builders, entries)
  | _ => none

variable {R : Type}

/-- The columns of entries in which all groups are written out. What is no column is reported. -/
def readColumns (config : Config R) (table : String) (builders : List String) :
    List (Entry Expr) → Journaled (List Column)
  | [] => return []
  | .spread _ :: entries => do
    Journaled.warning "Spread element is not a shared column group; skipped" (some table)
    readColumns config table builders entries
  | .property name value :: entries => do
    let column ← Journaled.ofExcept
      (column? config.drizzleKeywords config.drizzleTypes builders name value)
    match column with
    | some column => return column :: (← readColumns config table builders entries)
    | none =>
      Journaled.info ("Property '" ++ name ++ "' is not a column definition; skipped") (some table)
      readColumns config table builders entries

/-- The parts of a table call: the name in the database, the builders, the entries of the column
object and the indexes. Otherwise the reason why it declares no table. -/
def tableParts (keywords : DrizzleKeywords) (id : String) :
    List Expr → Except String (String × List String × List (Entry Expr) × List Index)
  | .string name :: columns :: rest =>
    match columnEntries? columns with
    | some (builders, entries) =>
      .ok (name, builders, entries, (rest.head?.map (tableIndexes keywords id)).getD [])
    | none => .error "column definitions are not an object literal"
  | _ => .error "expected a table name and a column object"

variable [Coordinate R]

/-- Registers the table of an exported declaration, if it declares one. -/
def addTable (config : Config R) (draws : Nat → R) (surroundings : Surroundings)
    (state : Registry R × Nat) (declaration : Declaration) : Journaled (Registry R × Nat) := do
  let (registry, drawn) := state
  let keywords := config.drizzleKeywords
  match declaration.init.bind (tableArguments? keywords surroundings.creators) with
  | none => return state
  | some arguments =>
    match tableParts keywords declaration.name arguments with
    | .error reason =>
      Journaled.warning ("Table declaration skipped: " ++ reason) (some declaration.name)
      return state
    | .ok (name, builders, entries, indexes) =>
      let columns ← readColumns config declaration.name builders (surroundings.groups.flatten entries)
      Journaled.record { draws := 1 }
      let registry ← registry.register
        { id := declaration.name, name, columns, indexes
          position := config.layout.position (draws drawn) registry.size }
      return (registry, drawn + 1)

end SchemaAtlas.Fluent
