import SchemaAtlas.Blocks.Model
import SchemaAtlas.Journal
import SchemaAtlas.Text.Lower
import SchemaAtlas.Types.Keywords
import SchemaAtlas.Types.Provider

/-!
The table of a model: its scalar fields become columns, its `@@` attributes indexes.
-/

set_option autoImplicit false

namespace SchemaAtlas.Blocks

open Text

namespace Field

/-- The column type that a native type attribute names, with its arguments. -/
def nativeType? (keywords : PrismaKeywords) (field : Field) : Option String :=
  field.attributes.findSome? fun attr => do
    let name ← dropLiteral? keywords.nativeTypeMark.toList attr.name.toList
    if name.isEmpty then none
    else
      let native := String.ofList (lower name)
      match attr.rawArgs with
      | some raw =>
        if (trim raw.toList).isEmpty then some native
        else some (native ++ "(" ++ joinWith ", " attr.args ++ ")")
      | none => some native

/-- The argument of the default attribute, if there is one. -/
def defaultArg? (keywords : PrismaKeywords) (field : Field) : Option String :=
  (field.attribute? keywords.defaultAttribute).bind (·.args.head?)

/-- The serial type of a key that counts by itself. -/
def serialType? (keywords : PrismaKeywords) (field : Field) : Option String :=
  let counts := (field.defaultArg? keywords).any fun arg =>
    arg ≠ "" ∧ contains keywords.autoincrementGenerator.toList arg.toList
  if field.hasAttribute keywords.idAttribute && counts then
    (keywords.serialTypes.find? (·.1 = field.type)).map (·.2)
  else none

/-- The column type: a native type, a serial type, a type of the dictionary, an enumeration, or the
field's own type in small letters. -/
def columnType (keywords : PrismaKeywords) (types : TypeProvider) (enums : List String)
    (field : Field) : Except Fault String :=
  match field.nativeType? keywords, field.serialType? keywords with
  | some native, _ => .ok native
  | none, some serial => .ok serial
  | none, none =>
    match types.resolve field.type with
    | .error fault => .error fault
    | .ok (some type) => .ok type
    | .ok none =>
      if field.type ∈ enums then .ok ("enum(" ++ field.type ++ ")")
      else .ok (String.ofList (lower field.type.toList))

/-- The default that an argument stands for: a generator call becomes its sentinel. -/
def defaultOfArg (keywords : PrismaKeywords) (arg : String) : String :=
  let mentions (generator : String) := contains generator.toList arg.toList
  if keywords.uuidGenerators.any mentions then Sentinel.uuid
  else if mentions keywords.nowGenerator then Sentinel.now
  else if mentions keywords.autoincrementGenerator then Sentinel.autoincrement
  else arg

def defaultValue? (keywords : PrismaKeywords) (field : Field) : Option String :=
  if field.hasAttribute keywords.defaultAttribute then
    some (defaultOfArg keywords ((field.defaultArg? keywords).getD ""))
  else none

def column (keywords : PrismaKeywords) (types : TypeProvider) (enums compositeKey : List String)
    (reference : Option ColumnReference) (field : Field) : Except Fault Column := do
  let type ← field.columnType keywords types enums
  (Column.ofFields? field.name (if field.isArray then type ++ "[]" else type)
    (field.hasAttribute keywords.idAttribute || field.name ∈ compositeKey)
    (field.hasAttribute keywords.uniqueAttribute) (!field.isOptional) reference
    (field.defaultValue? keywords)).mapError .refused

end Field

/-- What the `@@` attributes of a model say about its table. -/
structure TableMarks where
  name : String
  indexes : List Index := []
  compositeKey : List String := []
  deriving DecidableEq, Repr

namespace TableMarks

/-- A text that is there and not empty. -/
def nonEmpty? (text : Option String) : Option String := text.filter (· ≠ "")

/-- The name of an index: the one given, or one made from the model, the attribute and the number of
indexes before it. -/
def indexName (model : String) (count : Nat) (attr : Attribute) : String :=
  match nonEmpty? ((nonEmpty? (attr.named? "name")).or (attr.named? "map")) with
  | some name => String.ofList (unquote name.toList)
  | none => model ++ "_" ++ attr.name ++ "_" ++ toString count

/-- Takes one more attribute with arguments into account. -/
def add (keywords : PrismaKeywords) (model : String) (marks : TableMarks) (attr : Attribute) :
    TableMarks :=
  match attr.args with
  | [] => marks
  | first :: _ =>
    if attr.name = keywords.mapAttribute then
      { marks with name := String.ofList (unquote first.toList) }
    else if attr.name ∉ keywords.indexAttributes then marks
    else
      let columns := listNames ((nonEmpty? (attr.named? "fields")).getD first).toList
      if columns.isEmpty then marks
      else
        let index : Index :=
          { name := indexName model marks.indexes.length attr, columns
            isUnique := attr.name ∈ keywords.uniqueIndexAttributes }
        { marks with
          indexes := marks.indexes ++ [index]
          compositeKey :=
            if attr.name = keywords.idAttribute then marks.compositeKey ++ columns
            else marks.compositeKey }

end TableMarks

namespace Model

def marks (keywords : PrismaKeywords) (model : Model) : TableMarks :=
  model.attributes.foldl (TableMarks.add keywords model.name) { name := model.name }

/-- The column that a field of a model points at: the target of the last relationship from it. -/
def reference? (relationships : List Relationship) (model field : String) :
    Option ColumnReference :=
  ((relationships.filter fun r => r.source = model ∧ r.sourceColumn = field).getLast?).map
    fun r => { table := r.target, column := r.targetColumn }

/-- The columns of a model, in the order of its scalar fields. -/
def columns (keywords : PrismaKeywords) (types : TypeProvider) (models enums : List String)
    (relationships : List Relationship) (model : Model) : Except Fault (List Column) :=
  (model.fields.filter (·.type ∉ models)).mapM fun field =>
    field.column keywords types enums (model.marks keywords).compositeKey
      (reference? relationships model.name field.name)

end Model

end SchemaAtlas.Blocks
