import SchemaAtlas.Script.Grammar.Class

/-!
Expressions. Parentheses, casts and marks of surely present values do not change a value and leave
no trace in it.
-/

set_option autoImplicit false

namespace SchemaAtlas.Script

def Expr.isAssignable : Expr → Bool
  | .identifier _ | .member .. | .object _ | .array _ | .other .subscript _ => true
  | _ => false

namespace Rules

open Reader

def sequenceAt (rules : Rules) (place : Place) : Reader Expr := do
  let ((first, more), source) ← withSource do
    let first ← rules.exprAt place
    let more ← many (do sign ","; rules.exprAt place)
    return (first, more)
  return if more.isEmpty then first else .other .sequence source

def sequence (rules : Rules) : Reader Expr := sequenceAt rules .enclosed

/-- An argument of a call or an element of an array; one that is left out leaves nothing. -/
def element (rules : Rules) : Reader (Option Expr) :=
  (do hole; return none) <|> (do sign "..."; return some (.spread (← rules.expr))) <|>
    (do return some (← rules.expr))

def elements (rules : Rules) (close : String) : Reader (List Expr) := do
  return (← items close (element rules)).filterMap id

def callArguments (rules : Rules) : Reader (List Expr) := do
  sign "("
  elements rules ")"

def arrayLiteral (rules : Rules) : Reader Expr := do
  sign "["
  return .array (← elements rules "]")

/-- A method or an accessor of an object literal. It leaves no entry. -/
def objectMethod (rules : Rules) : Reader (Option (Entry Expr)) := do
  modifiers
  maybe (sign "*")
  let _ ← propertyName rules
  signature rules
  let _ ← block rules
  return none

/-- An entry of an object literal; a method and what is left out leave none. A name alone stands for
itself and its value. -/
def objectEntry (rules : Rules) : Reader (Option (Entry Expr)) :=
  (do hole; return none) <|>
    (do sign "..."; return some (.spread (← rules.expr))) <|>
    (do
      let key ← propertyName rules
      sign ":"
      return some (.property key (← rules.expr))) <|>
    objectMethod rules <|>
    (do
      let name ← anyWord
      return some (.property name (.identifier name)))

def objectLiteral (rules : Rules) : Reader Expr := do
  sign "\x7b"
  return .object ((← items "\x7d" (objectEntry rules)).filterMap id)

def substitutions (rules : Rules) : Reader Unit := do
  let _ ← ofKind .templateHead
  templateRest (do let _ ← sequence rules)

def asForm (form : Form) (reader : Reader Unit) : Reader Expr := do
  return .other form (← withSource reader).2

def functionValue (rules : Rules) : Reader Expr := do
  let (generator, source) ← withSource (functionExpression rules)
  return .other (if generator then .generator else .function) source

/-- Keywords that begin an expression and are none. -/
def expressionKeywords : List String :=
  ["class", "function", "new", "typeof", "void", "delete", "await"]

def wordOperand : Reader Expr := do
  let name ← anyWord
  require (name ∉ expressionKeywords)
  match Constant.ofWord? name, name with
  | some value, _ => return .constant value
  | none, "this" => return .other .this name
  | none, "super" => return .other .super name
  | none, "import" => return .other .importCall name
  | none, name => return .identifier name

def primary (rules : Rules) : Reader Expr :=
  (do return .string (withoutQuotes (← ofKind .string <|> ofKind .template))) <|>
    (do return .number (← ofKind .number)) <|>
    asForm .regex (do let _ ← ofKind .regex) <|>
    asForm .template (substitutions rules) <|>
    arrayLiteral rules <|> objectLiteral rules <|>
    (do sign "("; let value ← sequence rules; sign ")"; return value) <|>
    functionValue rules <|>
    asForm .classExpression (do
      require (← ahead fun token => token.isSign "@" || token.isWord "class")
      classExpression rules) <|>
    asForm .metaProperty (do word "import"; sign "."; word "meta") <|>
    asForm .metaProperty (do word "new"; sign "."; word "target") <|>
    (do return .identifier (← ofKind .privateName)) <|> wordOperand

def memberName : Reader String := anyWord <|> ofKind .privateName

def subscript (rules : Rules) : Reader Unit := do
  sign "["
  let _ ← sequence rules
  sign "]"

/-- Takes the members and subscripts behind the class of a new object along. -/
def constructorStep (rules : Rules) (_ : Unit) : Reader Unit :=
  (do sign "."; let _ ← memberName) <|> subscript rules

/-- A new object of a class, with arguments or without. -/
def newObject (rules : Rules) : Reader Expr := asForm .new do
  word "new"
  let nested ← many (word "new")
  let _ ← primary rules
  iterate (constructorStep rules) ()
  let call := do maybe (typeArguments rules); let _ ← callArguments rules
  maybe call
  let _ ← manyUpTo call nested.length

/-- Whether type arguments that are followed by a token are meant as such. -/
def endsTypeArguments (token : Token) : Bool :=
  token.beginsLine || (token.kind = .sign && token.text ∉ ["<", ">", "+", "-", "!", "~", "["])

/-- Goes on behind an operand: to a member, a subscript, a call, a template, type arguments or a mark
of a surely present value. -/
def operandStep (rules : Rules) (start : List Token) (value : Expr) : Reader Expr :=
  let upToHere (form : Form) : Reader Expr := do
    return .other form (Token.sourceUpTo start (← get))
  (do sign "."; return .member value (← memberName)) <|>
    (do return .call value (← callArguments rules)) <|>
    (do subscript rules; upToHere .subscript) <|>
    (do
      sign "?."
      (do return .member value (← memberName)) <|>
        (do maybe (typeArguments rules); return .call value (← callArguments rules)) <|>
        (do subscript rules; upToHere .subscript)) <|>
    (do
      (do let _ ← ofKind .template) <|> substitutions rules
      upToHere .taggedTemplate) <|>
    (do sameLine; sign "!"; return value) <|>
    (do
      typeArguments rules
      (do return .call value (← callArguments rules)) <|>
        (do (do let _ ← ofKind .template) <|> substitutions rules; upToHere .taggedTemplate) <|>
        (do
          match (← get).head? with
          | some token => require (endsTypeArguments token)
          | none => pure ()
          upToHere .instantiation))

/-- An operand with everything that belongs to it on its right. -/
def operand (rules : Rules) : Reader Expr := do
  let start ← get
  let value ← newObject rules <|> primary rules
  let value ← iterate (operandStep rules start) value
  (do sameLine; let _ ← oneOfSigns ["++", "--"]
      return .other .update (Token.sourceUpTo start (← get))) <|> pure value

/-- What may stand before an operand, with the form it gives to the whole. -/
def prefixMark (rules : Rules) : Reader Form :=
  (do let _ ← oneOfSigns ["!", "~", "+", "-"] <|> oneOfWords ["typeof", "void", "delete"]
      return .unary) <|>
    (do word "await"; return .await) <|>
    (do let _ ← oneOfSigns ["++", "--"]; return .update) <|>
    (do sign "<"; rules.type; sign ">"; return .typeAssertion)

def unary (rules : Rules) : Reader Expr := do
  let ((marks, value), source) ← withSource do
    let marks ← many (prefixMark rules)
    let value ← operand rules
    return (marks, value)
  match marks with
  | [] => return value
  | form :: _ => return .other form source

/-- A sign that follows the one before it at once. -/
def adjacent (text : String) : Reader Unit := do
  let _ ← next fun token => token.isSign text && token.gap.isEmpty

/-- How an operator binds: more loosely than a comparison, or not. -/
inductive Tightness
  | loose
  | tight
  deriving DecidableEq, Repr

def binaryOperator : Reader Tightness :=
  (do let _ ← oneOfSigns ["==", "!=", "===", "!==", "&", "^", "|", "&&", "||", "??"]
      return .loose) <|>
    (do let _ ← oneOfSigns ["+", "-", "*", "/", "%", "**", "<<", "<", "<="] <|>
          oneOfWords ["in", "instanceof"]
        return .tight) <|>
    (do
      sign ">"
      let shift ← manyUpTo (adjacent ">") 2
      if shift.isEmpty then maybe (adjacent "=")
      else require !(← ahead fun token => token.isSign "=" && token.gap.isEmpty)
      return .tight)

/-- The operands of a chain so far: their value, and whether a loose operator joins any of them. -/
structure Chain where
  value : Expr
  loose : Bool := false

/-- Goes on behind a chain of operands, with a cast or with another operand. A cast keeps the value
unless a loose operator stands before it, whose last operand alone it then changes. -/
def chainStep (rules : Rules) (place : Place) (start : List Token) (chain : Chain) : Reader Chain :=
  let whole : Reader Expr := do return .other .binary (Token.sourceUpTo start (← get))
  (do
    if place = .exposed then sameLine
    let _ ← oneOfWords ["as", "satisfies"]
    rules.type
    if chain.loose then return { chain with value := ← whole } else return chain) <|>
    (do
      let tightness ← binaryOperator
      let _ ← unary rules
      return { value := ← whole, loose := chain.loose || tightness = .loose })

def chain (rules : Rules) (place : Place) : Reader Expr := do
  let start ← get
  return (← iterate (chainStep rules place start) { value := ← unary rules }).value

/-- An assignment operator, and the form of what it assigns. -/
def assignmentOperator : Reader Form :=
  (do sign "="; return .assignment) <|>
    (do let _ ← oneOfSigns ["+=", "-=", "*=", "/=", "%=", "**=", "<<=", "&=", "|=", "^=", "&&=",
          "||=", "??="]
        return .augmentedAssignment) <|>
    (do
      sign ">"
      adjacent ">"
      maybe (adjacent ">")
      adjacent "="
      return .augmentedAssignment)

/-- The value of a function body: an expression, or what a block returns first. -/
def arrowBody (rules : Rules) (place : Place) : Reader Expr :=
  (do
    let (statements, source) ← withSource (block rules)
    return (Statement.returned? statements).getD (.other .block source)) <|> do
    require !(← ahead (·.isSign "\x7b"))
    rules.exprAt place

/-- The parameters of an arrow function up to its arrow. -/
def arrowHead (rules : Rules) : Reader (List String) :=
  (do let name ← anyWord; sign "=>"; return [name]) <|> do
    require (← ahead fun token => token.isSign "(" || token.isSign "<")
    maybe (typeParameters rules)
    require (← endsAsArrow)
    let names ← parameters rules
    returnAnnotation rules
    sign "=>"
    return names
where
  /-- Whether the group that is next can be the parameters of an arrow function. -/
  endsAsArrow : Reader Bool := do
    return (Token.behindGroup 1 ((← get).drop 1)).head?.any fun token =>
      token.isSign "=>" || token.isSign ":"

def arrowFunction (rules : Rules) (place : Place) : Reader Expr := do
  let names ← arrowHead rules <|> (do word "async"; sameLine; arrowHead rules)
  return .arrow names (← arrowBody rules place)

def yieldValue (rules : Rules) (place : Place) : Reader Expr := asForm .yield do
  word "yield"
  maybe (sign "*")
  maybe (do sameLine; let _ ← rules.exprAt place)

/-- An assignment to a pattern that is no expression itself. -/
def destructuring (rules : Rules) (place : Place) : Reader Expr := asForm .assignment do
  require (← ahead fun token => token.isSign "\x7b" || token.isSign "[")
  let _ ← rules.pattern
  sign "="
  let _ ← rules.exprAt place

/-- An operation, a choice between two values or an assignment. -/
def operation (rules : Rules) (place : Place) : Reader Expr := do
  let start ← get
  let value ← chain rules place
  let upToHere (form : Form) : Reader Expr := do
    return .other form (Token.sourceUpTo start (← get))
  (do
    sign "?"; let _ ← rules.expr
    sign ":"; let _ ← rules.exprAt place
    upToHere .ternary) <|>
    (do
      require value.isAssignable
      let form ← assignmentOperator
      let _ ← rules.exprAt place
      upToHere form) <|>
    pure value

def exprRule (rules : Rules) (place : Place) : Reader Expr :=
  arrowFunction rules place <|> yieldValue rules place <|> operation rules place <|>
    destructuring rules place

end Rules

end SchemaAtlas.Script
