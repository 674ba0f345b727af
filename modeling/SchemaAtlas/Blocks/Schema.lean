import SchemaAtlas.Blocks.Relation
import SchemaAtlas.Blocks.Table
import SchemaAtlas.Config
import SchemaAtlas.Schema.Links
import SchemaAtlas.Text.Comment

/-!
Schemas written in blocks, read block by block.
-/

set_option autoImplicit false

namespace SchemaAtlas.Blocks

open Text

/-- What is said when a text holds no declaration of this dialect at all. -/
def noDeclarations : String :=
  "No Prisma models or enums found. Make sure you have model definitions."

/-- One of the keywords as a word of its own with a name behind it. -/
def keywordWithName? (keywords : List String) (before : Option Char) (cs : List Char) :
    Option (List Char × List Char) :=
  if atWordEdge before cs.head? then
    keywords.findSome? fun keyword => do
      let cs ← dropLiteral? keyword.toList cs
      let cs ← dropBlanks? cs
      takeWord? cs
  else none

/-- Whether a text without comments holds a declaration keyword with a name. -/
def looksLike (keywords : PrismaKeywords) (cs : List Char) : Bool :=
  hasMatch (keywordWithName? [keywords.modelKeyword, keywords.enumKeyword]) cs

def unterminated (keyword : String) (block : OpenBlock) : Fault :=
  .structural ("Unterminated " ++ keyword ++ " block '" ++ block.name ++ "'")
    { line := some block.line }

/-- Reads the blocks of a keyword in order; one that is not closed is a fault behind those before
it. -/
def readBlocks {α : Type} (keyword : String) (read : Block → Except Fault α) (cs : List Char) :
    Except Fault (List α) := do
  let scan := blocks keyword cs
  let found ← scan.blocks.mapM read
  match scan.unclosed with
  | some block => throw (unterminated keyword block)
  | none => return found

/-- A model put among others: in the place of one of the same name, which is reported, or at the
end. -/
def addModel (models : List Model) (model : Model) : Journaled (List Model) :=
  match models with
  | [] => return [model]
  | other :: models =>
    if other.name = model.name then do
      Journaled.reportRedeclaration model.name
      return model :: models
    else return other :: (← addModel models model)

def noteMissingBlock (cs : List Char) (keyword : String) : Journaled Unit :=
  if hasBlockHeader keyword cs then return ()
  else Journaled.info ("Schema has no " ++ keyword ++ " block")

/-- The models of a text without comments, each name once, and its enumerations. -/
def collect (keywords : PrismaKeywords) (cleaned : List Char) :
    Journaled (List Model × List Enumeration) := do
  noteMissingBlock cleaned "generator"
  noteMissingBlock cleaned "datasource"
  let enums ← Journaled.ofExcept <| readBlocks keywords.enumKeyword
    (fun block => .ok { name := block.name, values := enumValues block.body }) cleaned
  let declared ← Journaled.ofExcept <| readBlocks keywords.modelKeyword Model.ofBlock? cleaned
  return (← declared.foldlM addModel [], enums)

variable {R : Type} [Coordinate R]

/-- The table of a model at a place of the schema. -/
def readTable (config : Config R) (draws : Nat → R) (models enums : List String)
    (relationships : List Relationship) (place : Nat) (model : Model) : Journaled (Table R) := do
  let columns ← Journaled.ofExcept
    (model.columns config.prismaKeywords config.prismaTypes models enums relationships)
  Journaled.record { draws := 1 }
  let marks := model.marks config.prismaKeywords
  return {
    id := model.name, name := marks.name, columns, indexes := marks.indexes
    position := config.layout.position (draws place) place }

def readTables (config : Config R) (draws : Nat → R) (models enums : List String)
    (relationships : List Relationship) (place : Nat) : List Model → Journaled (List (Table R))
  | [] => return []
  | model :: rest => do
    let table ← readTable config draws models enums relationships place model
    return table :: (← readTables config draws models enums relationships (place + 1) rest)

def schemaOf (config : Config R) (draws : Nat → R) (models : List Model)
    (enums : List Enumeration) : Journaled (Schema R) := do
  if models.isEmpty && enums.isEmpty then
    Journaled.fail (.emptySchema "No valid model/enum declarations found" {})
  else
    let names := models.map (·.name)
    let found ← models.mapM (Model.relationships config.prismaKeywords models)
    let relationships ← Relationship.settle names config.onUnresolved
      config.deduplicateRelationships found.flatten
    let tables ← readTables config draws names (enums.map (·.name)) relationships 0 models
    return { tables, relationships, enums }

def readSchema (config : Config R) (draws : Nat → R) (text : List Char) :
    Journaled (Schema R) := do
  let cleaned := stripComments text
  if !looksLike config.prismaKeywords cleaned then
    Journaled.fail (.dialectMismatch noDeclarations (some Dialect.prisma.label))
  else if !bracesBalanced cleaned then
    Journaled.fail (.structural "Unbalanced braces in Prisma schema" {})
  else
    let (models, enums) ← collect config.prismaKeywords cleaned
    schemaOf config draws models enums

end SchemaAtlas.Blocks
