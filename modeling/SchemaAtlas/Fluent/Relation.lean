import SchemaAtlas.Schema.Relationship
import SchemaAtlas.Script.Expr
import SchemaAtlas.Types.Keywords

/-!
Relationships that a relations helper declares for a table.
-/

set_option autoImplicit false

namespace SchemaAtlas.Fluent

open Script

/-- The name that a helper is called by, as a function or as a method. -/
def helperName? : Expr → Option String
  | .identifier name | .member _ name => some name
  | _ => none

/-- The relationships of the fields of a table with the columns at their places, or with the first
column beyond the last. A pair in which either is no member is left out. -/
def pairFields (source target : String) (fields columns : List Expr) : List Relationship :=
  match columns with
  | [] => []
  | first :: _ =>
    (fields.mapIdx fun place field => (field, columns.getD place first)).filterMap fun pair =>
      match pair with
      | (.member _ field, .member _ column) => some (Relationship.link source field target column)
      | _ => none

/-- The relationships of one entry of a relations helper: only the helper for one target, with its
fields and columns, makes any. -/
def relationshipsOf (keywords : DrizzleKeywords) (source : String) : Expr → List Relationship
  | .call callee (.identifier target :: .object options :: _) =>
    if helperName? callee = some keywords.oneHelper then
      match Expr.property? "fields" options, Expr.property? "references" options with
      | some (.array fields), some (.array columns) => pairFields source target fields columns
      | _, _ => []
    else []
  | _ => []

def relationships (keywords : DrizzleKeywords) : Option Expr → List Relationship
  | some (.call (.identifier helper) (.identifier source :: .arrow _ (.object entries) :: _)) =>
    if helper = keywords.relationsHelper then
      entries.flatMap fun entry =>
        match entry with
        | .property _ value => relationshipsOf keywords source value
        | .spread _ => []
    else []
  | _ => []

end SchemaAtlas.Fluent
