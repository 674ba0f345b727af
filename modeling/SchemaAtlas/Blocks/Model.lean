import SchemaAtlas.Blocks.Attribute
import SchemaAtlas.Schema.Basic
import SchemaAtlas.Text.Block

/-!
Models and enumerations as their blocks declare them: a model has one field or one `@@` attribute
per line, an enumeration has one value per word.
-/

set_option autoImplicit false

namespace SchemaAtlas.Blocks

open Text

structure Field where
  name : String
  type : String
  isArray : Bool
  isOptional : Bool
  attributes : List Attribute
  line : Nat
  deriving DecidableEq, Repr

namespace Field

def attribute? (field : Field) (name : String) : Option Attribute :=
  field.attributes.find? (·.name = name)

def hasAttribute (field : Field) (name : String) : Bool := (field.attribute? name).isSome

def isTypeChar (c : Char) : Bool := isWord c || c = '[' || c = ']' || c = '?'

/-- The type that a type text names: without the question marks at its end and then without one pair
of brackets. -/
def baseType (cs : List Char) : List Char :=
  let cs := (cs.reverse.dropWhile (· = '?')).reverse
  if endsWith ['[', ']'] cs then cs.dropLast.dropLast else cs

/-- The name, the type text and the rest of a field line. -/
def parts? (cs : List Char) : Option (List Char × List Char × List Char) := do
  let (name, cs) ← takeWord? cs
  let cs ← dropBlanks? cs
  let (type, rest) ← takeRun? isTypeChar cs
  return (name, type, rest)

/-- The field that a trimmed line declares, if it declares one. -/
def ofLine? (line : Nat) (cs : List Char) : Except Fault (Option Field) :=
  match parts? cs with
  | none => .ok none
  | some (name, type, rest) => do
    let attributes ← Attribute.listOf? rest
    return some
      { name := String.ofList name, type := String.ofList (baseType type)
        isArray := endsWith ['[', ']'] type, isOptional := endsWith ['?'] type
        attributes, line }

end Field

structure Model where
  name : String
  fields : List Field := []
  attributes : List Attribute := []
  line : Nat
  deriving DecidableEq, Repr

namespace Model

def field? (model : Model) (name : String) : Option Field := model.fields.find? (·.name = name)

inductive Item
  | nothing
  | field (field : Field)
  | attributes (attributes : List Attribute)

def Item.ofLine? (line : Nat) (cs : List Char) : Except Fault Item :=
  let cs := trim cs
  if cs.isEmpty then .ok .nothing
  else if beginsWith ['@', '@'] cs then (Attribute.listOf? cs).map .attributes
  else do
    match ← Field.ofLine? line cs with
    | some declared => return .field declared
    | none => return .nothing

/-- The model with the items of its lines, the first of which has the number `line`. -/
def ofLines? (name : String) (start line : Nat) : List (List Char) → Except Fault Model
  | [] => .ok { name, line := start }
  | cs :: rest => do
    let item ← Item.ofLine? line cs
    let model ← ofLines? name start (line + 1) rest
    return match item with
      | .nothing => model
      | .field field => { model with fields := field :: model.fields }
      | .attributes attributes => { model with attributes := attributes ++ model.attributes }

def ofBlock? (block : Block) : Except Fault Model :=
  ofLines? block.name block.line block.line (lines block.body)

end Model

/-- An attribute of an enumeration value with its parentheses, if a closing one follows. -/
def enumAttribute? (cs : List Char) : Option (List Char) := do
  let (_, rest) ← Attribute.head? cs
  match rest with
  | '(' :: inner =>
    match inner.dropWhile (· ≠ ')') with
    | [] => return rest
    | _ :: behind => return behind
  | rest => return rest

/-- The values in the body of an enumeration: its words, attributes left out. -/
def enumValues (body : List Char) : List String :=
  (words (replaceMatches [' '] (fun _ => enumAttribute?) body)).map String.ofList

end SchemaAtlas.Blocks
