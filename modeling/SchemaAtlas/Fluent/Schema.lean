import SchemaAtlas.Fluent.Relation
import SchemaAtlas.Fluent.Table
import SchemaAtlas.Schema.Links
import SchemaAtlas.Script.Module

/-!
Schemas written as a script: each part is read from all declarations before the next part, so that
declarations may refer to later ones.
-/

set_option autoImplicit false

namespace SchemaAtlas.Fluent

open Script

variable {R : Type} [Coordinate R]

/-- Lets the index of a declaration wait for its table, if it declares one. -/
def addIndex (keywords : DrizzleKeywords) (registry : Registry R) (declaration : Declaration) :
    Journaled (Registry R) := do
  match declaration.init.bind (IndexCall.ofExpr? keywords declaration.name) with
  | none => return registry
  | some { index, owners := [] } =>
    Journaled.warning "Index dropped: its columns do not name a table" (some index.name)
    return registry
  | some { index, owners := owner :: _ } => return (← registry.attach owner index).2

/-- The tables of a script with the indexes that its declarations add to them. -/
def collect (config : Config R) (draws : Nat → R) (surroundings : Surroundings)
    (script : Module) : Journaled (Registry R) := do
  let (registry, _) ← script.exported.foldlM (addTable config draws surroundings) ({}, 0)
  script.declarations.foldlM (addIndex config.drizzleKeywords) registry

def declared (keywords : DrizzleKeywords) (script : Module) : List Relationship :=
  script.declarations.flatMap fun declaration => relationships keywords declaration.init

/-- The schema that the declarations of a script make up. -/
def schemaOf (config : Config R) (draws : Nat → R) (script : Module) : Journaled (Schema R) := do
  let surroundings := Surroundings.ofDeclarations config.drizzleKeywords script.declarations
  let registry ← collect config draws surroundings script
  let tables := registry.merged
  if tables.isEmpty && surroundings.enums.isEmpty then
    Journaled.fail (.emptySchema "No valid table/enum declarations found" {})
  else
    let relationships ← Relationship.settle registry.tableIds config.onUnresolved
      config.deduplicateRelationships
      (declared config.drizzleKeywords script ++ Relationship.ofReferences tables)
    return { tables, relationships, enums := surroundings.enums }

def readSchema (config : Config R) (draws : Nat → R) (text : List Char) :
    Journaled (Schema R) := do
  schemaOf config draws (← Journaled.ofExcept (Module.ofText? text))

end SchemaAtlas.Fluent
