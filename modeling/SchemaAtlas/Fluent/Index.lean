import SchemaAtlas.Schema.Table
import SchemaAtlas.Script.Expr
import SchemaAtlas.Types.Keywords

/-!
Indexes written as calls: a helper call, the columns behind `on`, and calls chained to that, which
say nothing about the index.
-/

set_option autoImplicit false

namespace SchemaAtlas.Fluent

open Script

/-- An index with the names that stand before its columns, the first of which is its table. -/
structure IndexCall where
  index : Index
  owners : List String := []
  deriving DecidableEq, Repr

/-- A helper call with the columns it is called on. -/
structure OnCall where
  helper : Expr
  columns : List Expr

namespace OnCall

/-- The call that names the columns, under the calls chained to it. -/
def ofExpr? (keywords : DrizzleKeywords) : Expr → Option OnCall
  | .call (.member object method) arguments =>
    if method = keywords.indexOnMethod then some { helper := object, columns := arguments }
    else ofExpr? keywords object
  | _ => none

def columnNames (call : OnCall) : List String :=
  call.columns.filterMap fun argument =>
    match argument with
    | .member _ column => some column
    | _ => none

/-- The names that stand before the columns. -/
def owners (call : OnCall) : List String :=
  call.columns.filterMap fun argument =>
    match argument with
    | .member (.identifier owner) _ => some owner
    | _ => none

end OnCall

/-- The name that an index helper is given, unless it is empty. -/
def givenName? : List Expr → Option String
  | .string name :: _ => if name = "" then none else some name
  | _ => none

/-- The index of an expression. One without a name of its own gets `name`. -/
def IndexCall.ofExpr? (keywords : DrizzleKeywords) (name : String) (value : Expr) :
    Option IndexCall := do
  let call ← OnCall.ofExpr? keywords value
  match call.helper with
  | .call (.identifier helper) arguments =>
    if helper ∈ keywords.indexHelpers then
      some {
        index :=
          { name := (givenName? arguments).getD name, columns := call.columnNames
            isUnique := helper = keywords.uniqueIndexHelper }
        owners := call.owners }
    else none
  | _ => none

/-- The properties of an object and the names of their values. -/
def namedValues (entries : List (Entry Expr)) : List (String × Expr) :=
  entries.filterMap fun entry =>
    match entry with
    | .property name value => some (name, value)
    | .spread _ => none

/-- The indexes that the last argument of a table lists, by name in an object or by place in an
array. -/
def tableIndexes (keywords : DrizzleKeywords) (table : String) : Expr → List Index
  | .arrow _ (.object entries) =>
    (namedValues entries).filterMap fun (name, value) =>
      (IndexCall.ofExpr? keywords name value).map (·.index)
  | .arrow _ (.array elements) =>
    (elements.mapIdx fun place element =>
      IndexCall.ofExpr? keywords (table ++ "_index_" ++ toString place) element).filterMap
      fun call => call.map (·.index)
  | _ => []

end SchemaAtlas.Fluent
