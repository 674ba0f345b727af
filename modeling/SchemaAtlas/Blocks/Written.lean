import SchemaAtlas.Schema.Basic
import SchemaAtlas.Text.Word

/-!
Schemas in blocks as they are written: block after block, with each field of a model and each value
of an enumeration on a line of its own.
-/

set_option autoImplicit false

namespace SchemaAtlas.Blocks.Written

/-- An attribute `@name` or `@name(args)`. -/
structure Attribute where
  name : String
  args : Option String := none
  deriving DecidableEq, Repr

def Attribute.text (attr : Attribute) : List Char :=
  '@' :: (attr.name.toList ++
    match attr.args with
    | none => []
    | some args => '(' :: args.toList ++ [')'])

/-- What stands right behind the type of a field. -/
inductive Suffix
  | none
  | optional
  | list
  deriving DecidableEq, Repr

def Suffix.text : Suffix → List Char
  | .none => []
  | .optional => ['?']
  | .list => ['[', ']']

structure Field where
  name : String
  type : String
  suffix : Suffix := .none
  attributes : List Attribute := []
  deriving DecidableEq, Repr

def Field.attributesText (field : Field) : List Char :=
  field.attributes.flatMap fun attr => ' ' :: attr.text

def Field.text (field : Field) : List Char :=
  field.name.toList ++ ' ' :: (field.type.toList ++ field.suffix.text ++ field.attributesText)

structure Model where
  name : String
  fields : List Field := []
  deriving DecidableEq, Repr

inductive Block
  | enumeration (enum : Enumeration)
  | model (model : Model)
  deriving DecidableEq, Repr

namespace Block

def keyword : Block → List Char
  | .enumeration _ => ['e', 'n', 'u', 'm']
  | .model _ => ['m', 'o', 'd', 'e', 'l']

def name : Block → String
  | .enumeration enum => enum.name
  | .model declared => declared.name

def lines : Block → List (List Char)
  | .enumeration enum => enum.values.map String.toList
  | .model declared => declared.fields.map Field.text

def enumeration? : Block → Option Enumeration
  | .enumeration enum => some enum
  | .model _ => none

def model? : Block → Option Model
  | .enumeration _ => none
  | .model declared => some declared

end Block

/-- The text between the braces of a block: a line for each item, moved in by some spaces. -/
def bodyText (indent : Nat) (items : List (List Char)) : List Char :=
  '\n' :: items.flatMap fun item => List.replicate indent ' ' ++ (item ++ ['\n'])

def Block.text (indent : Nat) (block : Block) : List Char :=
  block.keyword ++ ' ' :: (block.name.toList ++ ' ' :: '{' ::
    (bodyText indent block.lines ++ ['}', '\n']))

def text (indent : Nat) (blocks : List Block) : List Char := blocks.flatMap (Block.text indent)

def enumerations (blocks : List Block) : List Enumeration := blocks.filterMap Block.enumeration?

def models (blocks : List Block) : List Model := blocks.filterMap Block.model?

/-- The fields of a model that are columns: those whose type is none of the models. -/
def Model.scalars (models : List Model) (model : Model) : List Field :=
  model.fields.filter (·.type ∉ models.map (·.name))

end SchemaAtlas.Blocks.Written
