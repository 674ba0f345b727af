import SchemaAtlas.Blocks.Model
import SchemaAtlas.Journal
import SchemaAtlas.Text.Lower
import SchemaAtlas.Types.Keywords

/-!
Relationships between models. A field whose type is a model is a relation field; its columns are
either given by an attribute or found by their names.
-/

set_option autoImplicit false

namespace SchemaAtlas.Blocks

open Text

/-- Each source column with the target column at its place, or with the first one beyond the last. -/
def pairColumns (sources : List String) (targets : List String) : List (String × String) :=
  match targets with
  | [] => []
  | first :: _ => sources.mapIdx fun place source => (source, targets.getD place first)

/-- Whether a field name says that it holds the key of a relation field: the relation's name and
`Id` or `_id`, or the name and `id` in any case. -/
def isKeyOf (relation name : String) : Bool :=
  name = relation ++ "Id" || name = relation ++ "_id" ||
    lower name.toList = lower relation.toList ++ ['i', 'd']

namespace Model

/-- The first field that by its name holds the key of a relation field. -/
def foreignKey? (model : Model) (relation : String) : Option Field :=
  model.fields.find? (isKeyOf relation ·.name)

/-- The relationships of one relation field of a model to its target. -/
def relationsOf (keywords : PrismaKeywords) (model : Model) (field : Field) (target : Model) :
    Journaled (List Relationship) := do
  let relation := field.attribute? keywords.relationAttribute
  match relation.bind (·.named? "fields"), relation.bind (·.named? "references") with
  | some fields, some references =>
    let sources := listNames fields.toList
    let targets := listNames references.toList
    if sources.isEmpty || targets.isEmpty then
      Journaled.warning "Relation has empty fields or references"
        (some (model.name ++ "." ++ field.name))
      return []
    else
      return (pairColumns sources targets).map fun (source, column) =>
        Relationship.link model.name source target.name column
  | _, _ =>
    if field.isArray then return []
    else
      match model.foreignKey? field.name,
        target.fields.find? (·.hasAttribute keywords.idAttribute) with
      | some source, some column =>
        return [Relationship.link model.name source.name target.name column.name]
      | _, _ => return []

/-- The relationships of a field, which has some only if its type is a model. -/
def relationsOfField (keywords : PrismaKeywords) (models : List Model) (model : Model)
    (field : Field) : Journaled (List Relationship) :=
  match models.find? (·.name = field.type) with
  | some target => model.relationsOf keywords field target
  | none => return []

/-- The relationships of a model, in the order of its fields. -/
def relationships (keywords : PrismaKeywords) (models : List Model) (model : Model) :
    Journaled (List Relationship) := do
  let found ← model.fields.mapM (model.relationsOfField keywords models)
  return found.flatten

end Model

end SchemaAtlas.Blocks
