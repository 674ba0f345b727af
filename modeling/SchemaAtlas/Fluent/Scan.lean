import SchemaAtlas.Config
import SchemaAtlas.Schema.Basic
import SchemaAtlas.Schema.Links
import SchemaAtlas.Schema.Registry
import SchemaAtlas.Text.Bracket
import SchemaAtlas.Text.Comment
import SchemaAtlas.Text.Pattern

/-!
A coarse reading of schemas written as scripts, for texts that are no well-formed script. It knows
exported enumerations and tables in their most common shape only.
-/

set_option autoImplicit false

namespace SchemaAtlas.Fluent.Scan

open Text

/-- The text behind a literal with blanks in front of it. -/
def dropMark? (mark : Char) (cs : List Char) : Option (List Char) := dropLiteral? [mark] (trimLeft cs)

/-- A declaration up to the opening bracket of the call that it is initialised with. -/
structure Opening where
  name : String
  callee : String
  /-- The text behind the opening bracket. -/
  behind : List Char
  deriving DecidableEq, Repr

def opening? (cs : List Char) : Option (Opening × List Char) := do
  let cs ← dropLiteral? ['e', 'x', 'p', 'o', 'r', 't'] cs
  let cs ← dropBlanks? cs
  let cs ← dropLiteral? ['c', 'o', 'n', 's', 't'] cs
  let cs ← dropBlanks? cs
  let (name, cs) ← takeWord? cs
  let cs ← dropMark? '=' cs
  let (callee, cs) ← takeRun? (fun c => isWord c || c = '$') (trimLeft cs)
  let behind ← dropMark? '(' cs
  return ({ name := String.ofList name, callee := String.ofList callee, behind }, behind)

/-- A quoted text without quotes in it, of one of the kinds of quotes, with blanks in front. -/
def quotedText? (quotes inner : List Char) (cs : List Char) : Option (List Char × List Char) :=
  match trimLeft cs with
  | quote :: cs =>
    if quote ∈ quotes then do
      let (text, cs) ← takeRun? (· ∉ inner) cs
      return (text, ← dropLiteral? [quote] cs)
    else none
  | [] => none

/-- The name of a table in the database, and the text behind the brace of its columns. -/
def tableHead? (cs : List Char) : Option (List Char × List Char) := do
  let quotes := ['\'', '"', '\x60']
  let (name, cs) ← quotedText? quotes quotes cs
  let cs ← dropMark? ',' cs
  return (name, ← dropMark? '{' cs)

def stripQuotes (cs : List Char) : List Char :=
  ((cs.dropWhile isQuote).reverse.dropWhile isQuote).reverse

/-- The values of an enumeration, given the text behind the bracket of its call. -/
def enumValues? (cs : List Char) : Option (List String) := do
  let (_, cs) ← quotedText? ['\'', '"'] ['\'', '"'] cs
  let cs ← dropMark? ',' cs
  let cs ← dropMark? '[' cs
  if ']' ∈ cs then
    let values := (splitAt ',' (cs.takeWhile (· ≠ ']'))).map fun value => stripQuotes (trim value)
    return (values.filter (!·.isEmpty)).map String.ofList
  else none

/-- The text behind the second opening bracket of a call of a call, given the text behind the first
one. -/
def secondCall? (cs : List Char) : Option (List Char) := do
  let (_, cs) ← closeGroup? '(' cs
  dropMark? '(' cs

def referenceHere? (cs : List Char) : Option ColumnReference := do
  let cs ← dropLiteral? ".references(".toList cs
  let cs ← dropMark? '(' cs
  let cs ← dropMark? ')' cs
  let cs ← dropLiteral? ['=', '>'] (trimLeft cs)
  let (table, cs) ← takeWord? (trimLeft cs)
  let cs ← dropLiteral? ['.'] cs
  let (column, cs) ← takeWord? cs
  let _ ← dropMark? ')' cs
  return { table := String.ofList table, column := String.ofList column }

/-- The column of an entry, unless the entry is no call under a name. -/
def column? (types : TypeProvider) (cs : List Char) : Except Fault (Option Column) :=
  let parts? : Option (List Char × List Char × List Char) := do
    let (name, cs) ← takeWord? cs
    let cs ← dropMark? ':' cs
    let (builder, cs) ← takeWord? (trimLeft cs)
    return (name, builder, ← dropMark? '(' cs)
  match parts? with
  | none => .ok none
  | some (name, builder, modifiers) => do
    let found ← types.resolve (String.ofList builder)
    let column ← (Column.ofFields? (String.ofList name)
      ((found.filter (· ≠ "")).getD (String.ofList builder))
      (contains "primaryKey()".toList modifiers) (contains "unique()".toList modifiers)
      (contains "notNull()".toList modifiers)
      (findMatch (fun _ => referenceHere?) none modifiers) none).mapError Fault.refused
    return some column

/-- The columns of the text behind the brace of a table, up to its partner or to the end. -/
def columns (types : TypeProvider) (cs : List Char) : Except Fault (List Column) := do
  let body := ((closeGroup? '{' cs).map (·.1)).getD cs
  let found ← (splitCommas body).mapM (column? types)
  return found.filterMap id

/-- The text in which the arguments of a table call begin, if a call makes a table. -/
def tableArguments? (keywords : DrizzleKeywords) (opening : Opening) : Option (List Char) :=
  if opening.callee ∈ keywords.tableCreators then secondCall? opening.behind
  else if opening.callee ∈ keywords.tableConstructors then some opening.behind
  else none

def enumeration? (keywords : DrizzleKeywords) (opening : Opening) : Option Enumeration :=
  if opening.callee ∈ keywords.enumConstructors then
    (enumValues? opening.behind).map fun values => { name := opening.name, values }
  else none

variable {R : Type} [Coordinate R]

/-- Registers the table of a declaration, if it declares one. -/
def addTable (config : Config R) (draws : Nat → R) (state : Registry R × Nat) (opening : Opening) :
    Journaled (Registry R × Nat) := do
  let (registry, drawn) := state
  let keywords := config.drizzleKeywords
  let head? :=
    if opening.callee ∈ keywords.enumConstructors then none
    else (tableArguments? keywords opening).bind tableHead?
  match head? with
  | none => return state
  | some (name, body) =>
    let columns ← Journaled.ofExcept (columns config.drizzleTypes body)
    Journaled.record { draws := 1 }
    let registry ← registry.register
      { id := opening.name, name := String.ofList name, columns
        position := config.layout.position (draws drawn) registry.size }
    return (registry, drawn + 1)

def scan (config : Config R) (draws : Nat → R) (cleaned : List Char) : Journaled (Schema R) := do
  let openings := allMatches (fun _ => opening?) cleaned
  let (registry, _) ← openings.foldlM (addTable config draws) ({}, 0)
  let tables := registry.merged
  let relationships ← Relationship.resolve registry.tableIds config.onUnresolved
    (Relationship.ofReferences tables)
  return { tables, relationships, enums := openings.filterMap (enumeration? config.drizzleKeywords) }

/-- The tables, relationships and enumerations that a coarse reading finds. -/
def readSchema (config : Config R) (draws : Nat → R) (text : List Char) : Journaled (Schema R) :=
  (scan config draws (stripComments text)).mapFault (Fault.inFallback Dialect.drizzle.displayName)

end SchemaAtlas.Fluent.Scan
