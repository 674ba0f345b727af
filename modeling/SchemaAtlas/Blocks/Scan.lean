import SchemaAtlas.Blocks.Model
import SchemaAtlas.Config
import SchemaAtlas.Schema.Registry
import SchemaAtlas.Text.Comment

/-!
A coarse reading of schemas written in blocks, for texts that cannot be read block by block. It
keeps scalar fields of known types only, and finds neither relationships nor indexes.
-/

set_option autoImplicit false

namespace SchemaAtlas.Blocks.Scan

open Text

/-- A block up to the first closing brace: its name, its body, and the text behind it. -/
def flatBlock? (keyword : List Char) (before : Option Char) (cs : List Char) :
    Option ((List Char × List Char) × List Char) := do
  let (name, behind) ← blockHeader? keyword before cs
  match behind.dropWhile (· ≠ '}') with
  | [] => none
  | _ :: rest => return ((name, behind.takeWhile (· ≠ '}')), rest)

def enums (cs : List Char) : List Enumeration :=
  (allMatches (flatBlock? ['e', 'n', 'u', 'm']) cs).map fun (name, body) =>
    { name := String.ofList name, values := enumValues body }

/-- A type text without brackets and question marks. -/
def plainType (cs : List Char) : List Char := cs.filter fun c => c ≠ '[' ∧ c ≠ ']' ∧ c ≠ '?'

/-- The column of a line, if it is a field of a type in the dictionary. -/
def column? (types : TypeProvider) (cs : List Char) : Except Fault (Option Column) :=
  let cs := trim cs
  if cs.isEmpty || beginsWith ['@', '@'] cs then .ok none
  else
    match Field.parts? cs with
    | none => .ok none
    | some (name, type, _) => do
      match ← types.resolve (String.ofList (plainType type)) with
      | none => return none
      | some resolved =>
        let column ← (Column.ofFields? (String.ofList name) resolved
          (contains ['@', 'i', 'd'] cs) (contains ['@', 'u', 'n', 'i', 'q', 'u', 'e'] cs)
          ('?' ∉ type) none none).mapError Fault.refused
        return some column

def columns (types : TypeProvider) (body : List Char) : Except Fault (List Column) := do
  let found ← (lines body).mapM (column? types)
  return found.filterMap id

variable {R : Type} [Coordinate R]

/-- Registers the table of a model. A model without a recognizable column is left out. -/
def addModel (config : Config R) (draws : Nat → R) (state : Registry R × Nat)
    (model : List Char × List Char) : Journaled (Registry R × Nat) := do
  let (registry, drawn) := state
  let name := String.ofList model.1
  let columns ← Journaled.ofExcept (columns config.prismaTypes model.2)
  if columns.isEmpty then
    Journaled.info "Model has no recognizable columns; skipped" (some name)
    return state
  else
    Journaled.record { draws := 1 }
    let registry ← registry.register
      { id := name, name, columns, position := config.layout.position (draws drawn) registry.size }
    return (registry, drawn + 1)

def scan (config : Config R) (draws : Nat → R) (cleaned : List Char) : Journaled (Schema R) := do
  let models := allMatches (flatBlock? ['m', 'o', 'd', 'e', 'l']) cleaned
  let (registry, _) ← models.foldlM (addModel config draws) ({}, 0)
  return { tables := registry.merged, enums := enums cleaned }

def readSchema (config : Config R) (draws : Nat → R) (text : List Char) : Journaled (Schema R) :=
  (scan config draws (stripComments text)).mapFault (Fault.inFallback Dialect.prisma.displayName)

end SchemaAtlas.Blocks.Scan
