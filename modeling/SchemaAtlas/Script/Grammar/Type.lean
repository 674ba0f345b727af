import SchemaAtlas.Script.Grammar.Member

/-!
Types. A schema does not need them, so they are read and forgotten.
-/

set_option autoImplicit false

namespace SchemaAtlas.Script.Rules

open Reader

/-- Whether an arrow stands behind the group that the next token opens. -/
def arrowBehindGroup : Reader Bool := do
  match ← get with
  | token :: tokens =>
    return token.isSign "(" && (Token.behindGroup 1 tokens).head?.any (·.isSign "=>")
  | [] => return false

def functionType (rules : Rules) : Reader Unit := do
  maybe (word "abstract")
  maybe (word "new")
  require ((← ahead (·.isSign "<")) || (← arrowBehindGroup))
  maybe (typeParameters rules)
  let _ ← parameters rules
  sign "=>"
  returnType rules

/-- A word of a type that stands before another type. -/
def typeOperator : Reader Unit := do
  let _ ← oneOfWords ["keyof", "unique", "readonly"]
  require (← ahead fun token => token.kind = .word || token.isSign "(" || token.isSign "[" ||
    token.isSign "\x7b")

/-- A type that a condition finds out, under a name. -/
def inferredType (rules : Rules) : Reader Unit := do
  word "infer"
  let _ ← anyWord
  maybe (do
    word "extends"; rules.type
    require !(← ahead (·.isSign "?")))

def typeName (rules : Rules) : Reader Unit := do
  let _ ← separated "." anyWord
  maybe (typeArguments rules)

/-- An element of a tuple type, with a name or without. -/
def tupleElement (rules : Rules) : Reader Unit := do
  maybe (sign "...")
  maybe (do let _ ← anyWord; maybe (sign "?"); sign ":")
  rules.type
  maybe (sign "?")

/-- A key in square brackets: of an index signature, of a mapped type, or an expression. -/
def bracketKey (rules : Rules) : Reader Unit :=
  (do sign "["; let _ ← anyWord; sign ":"; rules.type; sign "]") <|>
    (do
      sign "["; let _ ← anyWord; word "in"; rules.type
      maybe (do word "as"; rules.type)
      sign "]") <|>
    (do sign "["; let _ ← rules.expr; sign "]")

/-- A member of an object type or of an interface. -/
def typeMember (rules : Rules) : Reader Unit :=
  signature rules <|> (do word "new"; signature rules) <|>
    (do
      modifiers
      bracketKey rules <|> (do let _ ← propertyName rules)
      maybe (do maybe (oneOfSigns ["+", "-"]); sign "?")
      (do require ((← ahead (·.isSign "(")) || (← ahead (·.isSign "<"))); signature rules) <|>
        typeAnnotation rules)

def endOfMember : Reader Unit := sign "," <|> endOfStatement .other

def objectType (rules : Rules) : Reader Unit := do
  sign "\x7b"
  let _ ← many (do typeMember rules; endOfMember)
  sign "\x7d"

/-- Substitutions of a template behind its head, up to its end. -/
def templateRest (part : Reader Unit) : Reader Unit := do
  part
  let _ ← many (do let _ ← ofKind .templateMiddle; part)
  let _ ← ofKind .templateTail

def primaryType (rules : Rules) : Reader Unit :=
  (do sign "("; rules.type; sign ")") <|>
    (do sign "["; let _ ← items "]" (tupleElement rules)) <|>
    objectType rules <|>
    (do let _ ← ofKind .string <|> ofKind .number <|> ofKind .template) <|>
    (do sign "-"; let _ ← ofKind .number) <|>
    (do let _ ← ofKind .templateHead; templateRest rules.type) <|>
    (do
      maybe (word "typeof"); word "import"; sign "("; rules.type; sign ")"
      let _ ← many (do sign "."; anyWord)
      maybe (typeArguments rules)) <|>
    (do word "typeof"; typeName rules) <|>
    typeName rules

def typeOperand (rules : Rules) : Reader Unit :=
  functionType rules <|> inferredType rules <|> do
    let _ ← many typeOperator
    primaryType rules
    let _ ← many (do sameLine; sign "["; maybe rules.type; sign "]")

def typeRule (rules : Rules) : Reader Unit := do
  maybe (oneOfSigns ["|", "&"])
  typeOperand rules
  let _ ← many (do let _ ← oneOfSigns ["|", "&"]; typeOperand rules)
  maybe (do
    sameLine; word "extends"; rules.type
    sign "?"; rules.type; sign ":"; rules.type)

end SchemaAtlas.Script.Rules
