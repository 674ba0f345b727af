import SchemaAtlas.Fault
import SchemaAtlas.Script.Grammar.Statement
import SchemaAtlas.Script.Lexer

/-!
Scripts as a whole: the variables they declare at their top.
-/

set_option autoImplicit false

namespace SchemaAtlas.Script

/-- The grammar for parts that lie at most so deep in one another. -/
def Rules.upTo : Nat → Rules
  | 0 => { exprAt := fun _ => failure, type := failure, pattern := failure, statement := failure }
  | depth + 1 =>
    { exprAt := fun place tokens => exprRule (upTo depth) place tokens
      type := fun tokens => typeRule (upTo depth) tokens
      pattern := fun tokens => patternRule (upTo depth) tokens
      statement := fun tokens => statementRule (upTo depth) tokens }

/-- The statements of a list of tokens, if it consists of statements only. -/
def statements? (tokens : List Token) : Option (List Statement) :=
  match Reader.many (Rules.upTo (2 * tokens.length + 2)).statement tokens with
  | some (statements, []) => some statements
  | _ => none

/-- The variables that a script declares outside all blocks, in order. -/
structure Module where
  declarations : List Declaration := []
  deriving Repr

namespace Module

def exported (script : Module) : List Declaration := script.declarations.filter (·.exported)

def ofStatements (statements : List Statement) : Module where
  declarations := statements.flatMap fun statement =>
    match statement with
    | .declares declarations => declarations
    | _ => []

def malformed : Fault := .sourceSyntax "Syntax error in TypeScript source" {}

def ofText? (text : List Char) : Except Fault Module :=
  match statements? (tokens text) with
  | some statements => .ok (ofStatements statements)
  | none => .error malformed

end Module

end SchemaAtlas.Script
