/-!
Relationships: a foreign key column of one table points at a column of another.
-/

set_option autoImplicit false

namespace SchemaAtlas

structure Relationship where
  id : String
  source : String
  target : String
  sourceColumn : String
  targetColumn : String
  deriving DecidableEq, Repr

/-- What makes two relationships the same link. -/
structure LinkKey where
  source : String
  sourceColumn : String
  target : String
  targetColumn : String
  deriving DecidableEq, Repr

namespace Relationship

/-- The name of a relationship, made from its owner, its column and its target. -/
def idOf (source sourceColumn target : String) : String :=
  "rel-" ++ source ++ "-" ++ sourceColumn ++ "-" ++ target

def link (source sourceColumn target targetColumn : String) : Relationship where
  id := idOf source sourceColumn target
  source := source
  target := target
  sourceColumn := sourceColumn
  targetColumn := targetColumn

def linkKey (relationship : Relationship) : LinkKey where
  source := relationship.source
  sourceColumn := relationship.sourceColumn
  target := relationship.target
  targetColumn := relationship.targetColumn

end Relationship

end SchemaAtlas
