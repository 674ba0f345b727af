import SchemaAtlas.Script.Grammar.Type

/-!
Functions with the keyword, and classes.
-/

set_option autoImplicit false

namespace SchemaAtlas.Script.Rules

open Reader

/-- A function with its keyword, a name or none, and a body. The answer tells whether it is a
generator. -/
def functionExpression (rules : Rules) : Reader Bool := do
  maybe (do word "async"; sameLine)
  word "function"
  let star ← optional (sign "*")
  maybe anyWord
  signature rules
  let _ ← block rules
  return star.isSome

def decorators (rules : Rules) : Reader Unit := do
  let _ ← many (do sign "@"; let _ ← rules.expr)

/-- What may stand behind the name of a member to mark it as optional or as surely assigned. -/
def memberMark : Reader Unit := maybe (oneOfSigns ["?", "!"])

/-- A method behind its name, with a body or without. -/
def method (rules : Rules) (finish : Reader Unit) : Reader Unit := do
  signature rules
  (do let _ ← block rules) <|> finish

def field (rules : Rules) : Reader Unit := do
  typeAnnotation rules
  let value ← initializer rules .exposed
  endOfStatement (if value.isSome then .value else .other)

def classMember (rules : Rules) : Reader Unit :=
  sign ";" <|> (do word "static"; let _ ← block rules) <|> do
    decorators rules
    modifiers
    maybe (sign "*")
    (do bracketKey rules) <|> (do let _ ← propertyName rules)
    memberMark
    method rules (endOfStatement .other) <|> field rules

/-- What a class extends: a name with type arguments, or any expression. -/
def superclass (rules : Rules) : Reader Unit :=
  (do
    typeName rules
    require (← ahead fun token => token.isSign "\x7b" || token.isWord "implements")) <|>
    (do let _ ← rules.expr)

def classRest (rules : Rules) : Reader Unit := do
  maybe (do require !(← ahead fun t => t.isWord "extends" || t.isWord "implements"); let _ ← anyWord)
  maybe (typeParameters rules)
  maybe (do word "extends"; superclass rules)
  maybe (do word "implements"; let _ ← separated "," (typeName rules))
  sign "\x7b"
  let _ ← many (classMember rules)
  sign "\x7d"

def classExpression (rules : Rules) : Reader Unit := do
  decorators rules
  maybe (word "abstract")
  word "class"
  classRest rules

end SchemaAtlas.Script.Rules
