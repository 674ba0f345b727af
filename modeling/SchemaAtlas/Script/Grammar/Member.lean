import SchemaAtlas.Script.Reader

/-!
What expressions, types and classes share: property names, type parameters and arguments,
parameters and blocks.
-/

set_option autoImplicit false

namespace SchemaAtlas.Script.Rules

open Reader

/-- A text without its first and its last character. -/
def withoutQuotes (text : String) : String := String.ofList (text.toList.drop 1).dropLast

/-- The name of a property: a string gives its contents, everything else its text. -/
def propertyName (rules : Rules) : Reader String :=
  anyWord <|> ofKind .privateName <|> ofKind .number <|>
    (do return withoutQuotes (← ofKind .string)) <|>
    (do return (← withSource (do sign "["; let _ ← rules.expr; sign "]")).2)

/-- Words that may stand before the name of a member. -/
def modifierWords : List String :=
  ["public", "private", "protected", "static", "readonly", "abstract", "override", "declare",
    "async", "get", "set", "accessor", "in", "out", "const"]

def beginsMember (token : Token) : Bool :=
  match token.kind with
  | .word | .privateName | .number | .string => true
  | .sign => token.text = "[" || token.text = "*" || token.text = "\x7b"
  | _ => false

def modifier : Reader Unit := do
  maybe (oneOfSigns ["+", "-"])
  let _ ← oneOfWords modifierWords
  require (← ahead beginsMember)

def modifiers : Reader Unit := do
  let _ ← many modifier

/-- Types in angle brackets, at least one. -/
def typeArguments (rules : Rules) : Reader Unit := do
  sign "<"
  require !(← items ">" rules.type).isEmpty

def typeParameter (rules : Rules) : Reader Unit := do
  modifiers
  let _ ← anyWord
  maybe (do word "extends"; rules.type)
  maybe (do sign "="; rules.type)

def typeParameters (rules : Rules) : Reader Unit := do
  sign "<"
  require !(← items ">" (typeParameter rules)).isEmpty

/-- The type a function returns, which may be a claim about a parameter. -/
def returnType (rules : Rules) : Reader Unit :=
  (do maybe (word "asserts"); let _ ← anyWord; word "is"; rules.type) <|>
    (do word "asserts"; let _ ← anyWord) <|> rules.type

def returnAnnotation (rules : Rules) : Reader Unit := maybe (do sign ":"; returnType rules)

def typeAnnotation (rules : Rules) : Reader Unit := maybe (do sign ":"; rules.type)

def initializer (rules : Rules) (place : Place) : Reader (Option Expr) :=
  optional (do sign "="; rules.exprAt place)

def parameter (rules : Rules) : Reader (List String) := do
  let _ ← many (do sign "@"; let _ ← rules.expr)
  let names ←
    (do sign "..."; let _ ← rules.pattern; return []) <|>
      (do word "this"; return []) <|>
      (do modifiers; return (← rules.pattern).names)
  maybe (sign "?")
  typeAnnotation rules
  let _ ← initializer rules .enclosed
  return names

def parameters (rules : Rules) : Reader (List String) := do
  sign "("
  return (← items ")" (parameter rules)).flatten

def block (rules : Rules) : Reader (List Statement) := do
  sign "\x7b"
  let statements ← many rules.statement
  sign "\x7d"
  return statements

/-- A function from its type parameters on to the type it returns. -/
def signature (rules : Rules) : Reader Unit := do
  maybe (typeParameters rules)
  let _ ← parameters rules
  returnAnnotation rules

/-- The place of an item that is left out of a list. -/
def hole : Reader Unit := do require (← ahead (·.isSign ","))

def patternRule (rules : Rules) : Reader Pattern :=
  objectPattern <|> arrayPattern <|> (do return .plain (← anyWord))
where
  objectPattern : Reader Pattern := do
    sign "\x7b"
    return .object (← items "\x7d" entry).flatten
  arrayPattern : Reader Pattern := do
    sign "["
    let _ ← items "]" (element <|> hole)
    return .other
  element : Reader Unit := do
    maybe (sign "...")
    let _ ← rules.pattern
    let _ ← initializer rules .enclosed
  unlessDefault (names : List String) : Reader (List String) := do
    match ← initializer rules .enclosed with
    | some _ => return []
    | none => return names
  entry : Reader (List String) :=
    (do hole; return []) <|> (do sign "..."; let _ ← rules.pattern; return []) <|>
      (do let _ ← propertyName rules; sign ":"; unlessDefault (← rules.pattern).names) <|>
      (do unlessDefault [← anyWord])

end SchemaAtlas.Script.Rules
