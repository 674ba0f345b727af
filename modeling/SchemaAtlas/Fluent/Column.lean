import SchemaAtlas.Schema.Column
import SchemaAtlas.Script.Expr
import SchemaAtlas.Types.Keywords
import SchemaAtlas.Types.Provider

/-!
Columns written as calls: a base call that creates the column, and modifier calls chained to it.
-/

set_option autoImplicit false

namespace SchemaAtlas.Fluent

open Script

/-- The text of a literal inside a type: strings without quotes, numbers and constants as they are
written. -/
def plainText? : Expr → Option String
  | .string text | .number text => some text
  | .constant value => some value.word
  | _ => none

/-- The text of a literal or of an object of literals. Properties that are neither are left out, and
an object without any other has no text. -/
def literalText? : Expr → Option String
  | .object entries =>
    let parts := entries.filterMap fun entry =>
      match entry with
      | .property key value => (plainText? value).map (key ++ ": " ++ ·)
      | .spread _ => none
    if parts.isEmpty then none else some ("\x7b " ++ joinWith ", " parts ++ " \x7d")
  | value => plainText? value

structure Modifier where
  name : String
  arguments : List Expr := []
  deriving Repr

/-- A column definition: the base call and the modifiers in the order in which they are written. -/
structure Chain where
  base : String
  arguments : List Expr := []
  modifiers : List Modifier := []
  deriving Repr

namespace Chain

def addModifier (chain : Chain) (modifier : Modifier) : Chain :=
  { chain with modifiers := chain.modifiers ++ [modifier] }

/-- The chain of an expression. The base is called by its name or as a member of one of the
builders. -/
def ofExpr? (builders : List String) : Expr → Option Chain
  | .call (.identifier base) arguments => some { base, arguments }
  | .call (.member (.identifier receiver) name) arguments =>
    if receiver ∈ builders then some { base := name, arguments } else none
  | .call (.member receiver name) arguments =>
    (ofExpr? builders receiver).map (·.addModifier { name, arguments })
  | _ => none

def has (chain : Chain) (name : String) : Bool := chain.modifiers.any (·.name = name)

/-- The arguments of the base call that belong to the type: all literals except a string at the
front, which names the column in the database. -/
def typeArguments (chain : Chain) : List String :=
  let rest := match chain.arguments with
    | .string _ :: rest => rest
    | arguments => arguments
  rest.filterMap fun argument =>
    match argument with
    | .constant _ => none
    | argument => literalText? argument

/-- The column type: the one of the dictionary or else the base, with the arguments. -/
def columnType (types : TypeProvider) (chain : Chain) : Except Fault String := do
  let found ← types.resolve chain.base
  let type := (found.filter (· ≠ "")).getD chain.base
  if chain.typeArguments.isEmpty then return type
  else return type ++ "(" ++ joinWith ", " chain.typeArguments ++ ")"

/-- The column that a function without parameters points at. -/
def referenceOf? : List Expr → Option ColumnReference
  | .arrow [] (.member (.identifier table) column) :: _ => some { table, column }
  | _ => none

/-- The column that the first references modifier points at. -/
def reference? (keywords : DrizzleKeywords) (chain : Chain) : Option ColumnReference :=
  (chain.modifiers.find? (·.name = keywords.referencesModifier)).bind (referenceOf? ·.arguments)

/-- The default that a modifier sets: its argument if that is a plain literal, or a sentinel. -/
def defaultOf? (keywords : DrizzleKeywords) (modifier : Modifier) : Option String :=
  if modifier.name = keywords.defaultModifier then
    some ((modifier.arguments.head?.bind plainText?).getD Sentinel.literal)
  else keywords.sentinelFor? modifier.name

/-- The default that the first such modifier sets. -/
def defaultValue? (keywords : DrizzleKeywords) (chain : Chain) : Option String :=
  chain.modifiers.findSome? (defaultOf? keywords)

def column (keywords : DrizzleKeywords) (types : TypeProvider) (name : String) (chain : Chain) :
    Except Fault Column := do
  let type ← chain.columnType types
  (Column.ofFields? name type (chain.has keywords.primaryKeyModifier)
    (chain.has keywords.uniqueModifier) (chain.has keywords.notNullModifier)
    (chain.reference? keywords) (chain.defaultValue? keywords)).mapError .refused

end Chain

/-- The column of a property, unless its value is no chain of calls. -/
def column? (keywords : DrizzleKeywords) (types : TypeProvider) (builders : List String)
    (name : String) (value : Expr) : Except Fault (Option Column) :=
  match Chain.ofExpr? builders value with
  | some chain => (chain.column keywords types name).map some
  | none => .ok none

end SchemaAtlas.Fluent
