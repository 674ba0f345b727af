import SchemaAtlas.Script.Grammar.Expr

/-!
Statements. Variables and returned values are kept; every other statement is read and forgotten.
-/

set_option autoImplicit false

namespace SchemaAtlas.Script.Rules

open Reader

def skip {α : Type} (reader : Reader α) : Reader Statement := do
  let _ ← reader
  return .other

/-- What is bound in a declaration, with its value and the line on which it stands. -/
structure Binding where
  pattern : Pattern
  init : Option Expr
  line : Nat

/-- The variable of a binding; a pattern of several variables declares none for a schema. -/
def Binding.declaration? (binding : Binding) : Option Declaration :=
  match binding.pattern with
  | .plain name => some { name, init := binding.init, line := binding.line }
  | _ => none

def binding (rules : Rules) : Reader Binding := do
  let line := ((← get).head?.map Token.line).getD 1
  let pattern ← rules.pattern
  maybe (sign "!")
  typeAnnotation rules
  return { pattern, init := ← initializer rules .exposed, line }

def bindings (rules : Rules) : Reader (List Binding) := separated "," (binding rules)

def variableKeywords : List String := ["const", "let", "var"]

def bindingStatement (rules : Rules) : Reader Statement := do
  let _ ← oneOfWords variableKeywords
  let bound ← bindings rules
  endOfStatement (if bound.getLast?.any (·.init.isSome) then .value else .other)
  return .declares (bound.filterMap Binding.declaration?)

def functionDeclaration (rules : Rules) : Reader Unit := do
  maybe (do word "async"; sameLine)
  word "function"
  maybe (sign "*")
  maybe anyWord
  method rules (endOfStatement .other)

def interfaceDeclaration (rules : Rules) : Reader Unit := do
  word "interface"
  let _ ← anyWord
  maybe (typeParameters rules)
  maybe (do word "extends"; let _ ← separated "," (typeName rules))
  objectType rules

def typeAlias (rules : Rules) : Reader Unit := do
  word "type"
  let _ ← anyWord
  maybe (typeParameters rules)
  sign "="
  rules.type
  endOfStatement .other

def enumDeclaration (rules : Rules) : Reader Unit := do
  maybe (word "const")
  word "enum"
  let _ ← anyWord
  sign "\x7b"
  let _ ← items "\x7d" (do let _ ← propertyName rules; initializer rules .enclosed)

def namespaceDeclaration (rules : Rules) : Reader Unit :=
  (do
    let _ ← oneOfWords ["namespace", "module"]
    (do let _ ← ofKind .string) <|> (do let _ ← separated "." anyWord)
    (do let _ ← block rules) <|> endOfStatement .other) <|>
    (do word "global"; let _ ← block rules)

def ambientDeclaration (rules : Rules) : Reader Unit := do
  word "declare"
  sameLine
  require (← ahead (·.kind = .word))
  namespaceDeclaration rules <|> (do let _ ← rules.statement)

/-- Names in curly brackets of an import or an export, with other names for them or without. -/
def bindingNames : Reader Unit := do
  sign "\x7b"
  let _ ← items "\x7d" do
    maybe (do word "type"; require (← ahead fun t => t.kind = .word || t.kind = .string))
    let _ ← anyWord <|> ofKind .string
    maybe (do word "as"; anyWord <|> ofKind .string)

def fromModule (rules : Rules) : Reader Unit := do
  word "from"
  let _ ← ofKind .string
  maybe (do let _ ← oneOfWords ["with", "assert"]; objectLiteral rules)

def importDeclaration (rules : Rules) : Reader Unit := do
  word "import"
  require !(← ahead fun token => token.isSign "(" || token.isSign ".")
  (do let _ ← ofKind .string; maybe (do let _ ← oneOfWords ["with", "assert"]; objectLiteral rules)) <|>
    (do
      maybe (word "type")
      namespaceNames <|> bindingNames <|> (do
        let _ ← anyWord
        maybe (do sign ","; namespaceNames <|> bindingNames))
      fromModule rules) <|>
    (do
      maybe (word "type")
      bindingNames <|> namespaceNames <|> (do let _ ← anyWord)
      fromModule rules) <|>
    (do
      let _ ← anyWord
      sign "="
      let _ ← rules.expr)
  endOfStatement .other
where
  namespaceNames : Reader Unit := do
    sign "*"
    word "as"
    let _ ← anyWord

/-- The words with which a declaration can begin that is exported. -/
def declarationWords : List String :=
  variableKeywords ++ ["function", "async", "class", "abstract", "interface", "type", "enum",
    "namespace", "module", "declare", "import"]

def exportDefault (rules : Rules) : Reader Unit := do
  word "default"
  functionDeclaration rules <|> classExpression rules <|> interfaceDeclaration rules <|>
    (do let _ ← sequenceAt rules .exposed; endOfStatement .value)

def exportedDeclaration (rules : Rules) : Reader Statement := do
  require (← ahead fun token => (token.kind = .word && token.text ∈ declarationWords) ||
    token.isSign "@")
  match ← rules.statement with
  | .declares declarations =>
    return .declares (declarations.map ({ · with exported := true }))
  | _ => return .other

def exportStatement (rules : Rules) : Reader Statement := do
  word "export"
  skip (exportDefault rules) <|> exportedDeclaration rules <|>
    skip (do sign "="; let _ ← rules.exprAt .exposed; endOfStatement .value) <|> skip do
    maybe (word "type")
    (do
      sign "*"
      maybe (do word "as"; anyWord <|> ofKind .string)
      fromModule rules) <|>
      (do bindingNames; maybe (fromModule rules)) <|>
      (do word "as"; word "namespace"; let _ ← anyWord)
    endOfStatement .other

def condition (rules : Rules) : Reader Unit := do
  sign "("
  let _ ← sequence rules
  sign ")"

def ifStatement (rules : Rules) : Reader Unit := do
  word "if"
  condition rules
  let _ ← rules.statement
  maybe (do word "else"; rules.statement)

/-- The head of a loop over the members of a value. -/
def iterationHead (rules : Rules) : Reader Unit := do
  (do let _ ← oneOfWords variableKeywords; let _ ← rules.pattern; typeAnnotation rules) <|>
    (do let _ ← operand rules)
  let _ ← oneOfWords ["of", "in"]
  let _ ← sequence rules

/-- The head of a loop with a start, a condition and a step. -/
def countingHead (rules : Rules) : Reader Unit := do
  maybe ((do let _ ← oneOfWords variableKeywords; let _ ← bindings rules) <|>
    (do let _ ← sequence rules))
  sign ";"
  maybe (sequence rules)
  sign ";"
  maybe (sequence rules)

def forStatement (rules : Rules) : Reader Unit := do
  word "for"
  maybe (word "await")
  sign "("
  (do iterationHead rules; sign ")") <|> (do countingHead rules; sign ")")
  let _ ← rules.statement

def whileStatement (rules : Rules) : Reader Unit := do
  let _ ← oneOfWords ["while", "with"]
  condition rules
  let _ ← rules.statement

def doStatement (rules : Rules) : Reader Unit := do
  word "do"
  let _ ← rules.statement
  word "while"
  condition rules
  maybe (sign ";")

def switchStatement (rules : Rules) : Reader Unit := do
  word "switch"
  condition rules
  sign "\x7b"
  let _ ← many do
    (do word "case"; let _ ← sequence rules) <|> word "default"
    sign ":"
    many do
      require !(← ahead fun token => token.isWord "case" || token.isWord "default")
      rules.statement
  sign "\x7d"

def tryStatement (rules : Rules) : Reader Unit := do
  word "try"
  let _ ← block rules
  let caught ← optional do
    word "catch"
    maybe (do sign "("; let _ ← rules.pattern; typeAnnotation rules; sign ")")
    block rules
  let finished ← optional (do word "finally"; block rules)
  require (caught.isSome || finished.isSome)

def returnStatement (rules : Rules) : Reader Statement := do
  word "return"
  let value ← optional (do
    require !(← ahead Ending.other.mayPrecede)
    sequenceAt rules .exposed)
  endOfStatement (if value.isSome then .value else .other)
  return .returns value

def jump (rules : Rules) : Reader Unit :=
  (do
    let _ ← oneOfWords ["break", "continue"]
    maybe (do sameLine; anyWord)
    endOfStatement .other) <|>
    (do word "throw"; let _ ← sequenceAt rules .exposed; endOfStatement .value) <|>
    (do word "debugger"; endOfStatement .other)

def keywordStatement? (rules : Rules) (keyword : String) : Option (Reader Statement) :=
  match keyword with
  | "if" => some (skip (ifStatement rules))
  | "for" => some (skip (forStatement rules))
  | "while" | "with" => some (skip (whileStatement rules))
  | "do" => some (skip (doStatement rules))
  | "switch" => some (skip (switchStatement rules))
  | "try" => some (skip (tryStatement rules))
  | "return" => some (returnStatement rules)
  | "break" | "continue" | "throw" | "debugger" => some (skip (jump rules))
  | "const" => some (skip (enumDeclaration rules) <|> bindingStatement rules)
  | "var" => some (bindingStatement rules)
  | "function" => some (skip (functionDeclaration rules))
  | "class" => some (skip (classExpression rules))
  | "enum" => some (skip (enumDeclaration rules))
  | "export" => some (exportStatement rules)
  | _ => none

/-- A declaration with a word that can also be a name. -/
def softDeclaration (rules : Rules) : Reader Statement :=
  skip (do word "async"; require (← ahead (·.isWord "function")); functionDeclaration rules) <|>
    (do
      require (← ahead (·.isWord "let"))
      bindingStatement rules) <|>
    skip (do
      require (← ahead fun token => token.isWord "abstract" || token.isSign "@")
      classExpression rules) <|>
    (do
      require (← ahead (·.isSign "@"))
      decorators rules
      exportStatement rules) <|>
    skip (interfaceDeclaration rules) <|> skip (typeAlias rules) <|>
    skip (namespaceDeclaration rules) <|> skip (ambientDeclaration rules) <|>
    skip (importDeclaration rules)

def labeledStatement (rules : Rules) : Reader Statement := do
  let _ ← anyWord
  sign ":"
  skip rules.statement

def expressionStatement (rules : Rules) : Reader Statement := do
  let _ ← sequenceAt rules .exposed
  endOfStatement .value
  return .other

def statementRule (rules : Rules) : Reader Statement := do
  match ← get with
  | [] => failure
  | token :: _ =>
    if token.isSign ";" then skip (sign ";")
    else if token.isSign "\x7b" then skip (block rules)
    else
      match if token.kind = .word then keywordStatement? rules token.text else none with
      | some statement => statement
      | none => softDeclaration rules <|> labeledStatement rules <|> expressionStatement rules

end SchemaAtlas.Script.Rules
