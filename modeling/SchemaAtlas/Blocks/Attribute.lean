import SchemaAtlas.Fault
import SchemaAtlas.Text.Bracket
import SchemaAtlas.Text.Pattern

/-!
Attributes `@name` and `@name(args)` of fields, and `@@` attributes of models.
-/

set_option autoImplicit false

namespace SchemaAtlas.Blocks

open Text

/-- An attribute: its name without the marks before it, its arguments between commas, and the text
between its parentheses, if it has any. -/
structure Attribute where
  name : String
  args : List String := []
  rawArgs : Option String := none
  deriving DecidableEq, Repr

namespace Attribute

def isNameChar (c : Char) : Bool := isWord c || c = '.'

/-- The name of an attribute and the text behind it. -/
def head? : List Char → Option (List Char × List Char)
  | '@' :: '@' :: cs => takeRun? isNameChar cs
  | '@' :: cs => takeRun? isNameChar cs
  | _ => none

def ofRawArgs (name raw : List Char) : Attribute where
  name := String.ofList name
  args := (splitCommas raw).map String.ofList
  rawArgs := some (String.ofList raw)

def unterminated (name : List Char) : Fault :=
  .structural ("Unterminated arguments of attribute '@" ++ String.ofList name ++ "'") {}

/-- The attribute that a text begins with, and the text behind it. Parentheses belong to an
attribute only if they follow its name at once. -/
def here? (cs : List Char) : Option (Except Fault Attribute × List Char) := do
  let (name, rest) ← head? cs
  match rest with
  | '(' :: inner =>
    match closeGroup? '(' inner with
    | some (raw, rest) => return (.ok (ofRawArgs name raw), rest)
    | none => return (.error (unterminated name), rest)
  | rest => return (.ok { name := String.ofList name }, rest)

/-- The attributes of a text in order; anything between them is skipped. -/
def listOf? (cs : List Char) : Except Fault (List Attribute) :=
  (allMatches (fun _ => here?) cs).mapM id

/-- The key and the value of an argument `key: value`. -/
def keyValue? (arg : List Char) : Option (List Char × List Char) := do
  let (key, rest) ← takeWord? arg
  let value ← dropLiteral? [':'] (trimLeft rest)
  if value.isEmpty then none else some (key, trim value)

/-- The value of the first argument of a key. -/
def named? (attr : Attribute) (key : String) : Option String :=
  attr.args.findSome? fun arg => do
    let (found, value) ← keyValue? arg.toList
    if String.ofList found = key then some (String.ofList value) else none

end Attribute

/-- The names of a list such as `[a, b(sort: Desc)]`: the word that each item begins with. A list
that is not closed goes on to the end. -/
def listNames (cs : List Char) : List String :=
  match cs.dropWhile (· ≠ '[') with
  | [] => []
  | _ :: behind =>
    let inner := match closeGroup? '[' behind with
      | some (inner, _) => inner
      | none => behind
    (splitCommas inner).filterMap fun item =>
      (takeWord? (trimLeft item)).map fun word => String.ofList word.1

end SchemaAtlas.Blocks
