/-!
Expressions of a script, as far as a schema needs them. What a schema does not need is kept by its
form and its text.
-/

set_option autoImplicit false

namespace SchemaAtlas.Script

inductive Constant
  | true
  | false
  | null
  | undefined
  deriving DecidableEq, Repr

namespace Constant

def all : List Constant := [.true, .false, .null, .undefined]

def word : Constant → String
  | .true => "true"
  | .false => "false"
  | .null => "null"
  | .undefined => "undefined"

def ofWord? (word : String) : Option Constant := all.find? (·.word = word)

@[simp] theorem ofWord?_word (constant : Constant) : ofWord? constant.word = some constant := by
  cases constant <;> rfl

end Constant

/-- The forms of expressions that a schema does not need. -/
inductive Form
  | assignment
  | augmentedAssignment
  | await
  | binary
  | classExpression
  | function
  | generator
  | importCall
  | instantiation
  | metaProperty
  | new
  | regex
  | sequence
  | block
  | subscript
  | super
  | taggedTemplate
  | template
  | ternary
  | this
  | typeAssertion
  | unary
  | update
  | yield
  deriving DecidableEq, Repr

def Form.label : Form → String
  | .assignment => "assignment_expression"
  | .augmentedAssignment => "augmented_assignment_expression"
  | .await => "await_expression"
  | .binary => "binary_expression"
  | .classExpression => "class"
  | .function => "function_expression"
  | .generator => "generator_function"
  | .importCall => "import"
  | .instantiation => "instantiation_expression"
  | .metaProperty => "meta_property"
  | .new => "new_expression"
  | .regex => "regex"
  | .sequence => "sequence_expression"
  | .block => "statement_block"
  | .subscript => "subscript_expression"
  | .super => "super"
  | .taggedTemplate => "call_expression"
  | .template => "template_string"
  | .ternary => "ternary_expression"
  | .this => "this"
  | .typeAssertion => "type_assertion"
  | .unary => "unary_expression"
  | .update => "update_expression"
  | .yield => "yield_expression"

/-- An entry of an object literal; `E` is the type of expressions. -/
inductive Entry (E : Type)
  | property (key : String) (value : E)
  | spread (argument : E)
  deriving DecidableEq, Repr

inductive Expr
  | identifier (name : String)
  /-- A string as it is written between its quotes. -/
  | string (text : String)
  | number (text : String)
  | constant (value : Constant)
  | member (object : Expr) (property : String)
  | call (callee : Expr) (arguments : List Expr)
  | object (entries : List (Entry Expr))
  | array (elements : List Expr)
  /-- An arrow function with the names that its parameters bind. -/
  | arrow (parameters : List String) (body : Expr)
  /-- A spread among the arguments of a call or the elements of an array. -/
  | spread (argument : Expr)
  | other (form : Form) (source : String)
  deriving Repr

/-- The value of the first property of a name. -/
def Expr.property? (key : String) : List (Entry Expr) → Option Expr
  | [] => none
  | .property name value :: entries =>
    if name = key then some value else property? key entries
  | .spread _ :: entries => property? key entries

/-- A variable that is declared at the top of a script or of a block. -/
structure Declaration where
  name : String
  init : Option Expr := none
  exported : Bool := false
  line : Nat := 1
  deriving Repr

inductive Statement
  | declares (declarations : List Declaration)
  | returns (value : Option Expr)
  | other
  deriving Repr

/-- The expression of the first return among statements. -/
def Statement.returned? : List Statement → Option Expr
  | [] => none
  | .returns value :: _ => value
  | _ :: statements => returned? statements

end SchemaAtlas.Script
