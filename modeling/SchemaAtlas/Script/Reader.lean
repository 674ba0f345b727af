import SchemaAtlas.Script.Expr
import SchemaAtlas.Script.Token

/-!
Reading from the front of a list of tokens. A reader answers with what it read and the tokens
behind it, or not at all.
-/

set_option autoImplicit false

namespace SchemaAtlas.Script

abbrev Reader : Type → Type := StateT (List Token) Option

namespace Reader

variable {α : Type}

def next (accept : Token → Bool) : Reader Token
  | [] => none
  | token :: tokens => if accept token then some (token, tokens) else none

/-- Whether there is a next token of some sort. Nothing is read. -/
def ahead (accept : Token → Bool) : Reader Bool := fun tokens => some (tokens.head?.any accept, tokens)

/-- Goes on only if a condition holds. -/
def require (condition : Bool) : Reader Unit := if condition then pure () else failure

def ofKind (kind : TokenKind) : Reader String := return (← next (·.kind = kind)).text

def sign (text : String) : Reader Unit := do
  let _ ← next (·.isSign text)

def oneOfSigns (texts : List String) : Reader String :=
  return (← next fun token => token.kind = .sign && token.text ∈ texts).text

def word (text : String) : Reader Unit := do
  let _ ← next (·.isWord text)

def oneOfWords (texts : List String) : Reader String :=
  return (← next fun token => token.kind = .word && token.text ∈ texts).text

def anyWord : Reader String := ofKind .word

/-- The next token stands on the line of the one before it. -/
def sameLine : Reader Unit := do require !(← ahead Token.beginsLine)

def maybe (reader : Reader α) : Reader Unit := do
  let _ ← optional reader

/-- Reads at most `limit` times, as often as it can. -/
def manyUpTo (reader : Reader α) : Nat → Reader (List α)
  | 0 => pure []
  | limit + 1 => (do return (← reader) :: (← manyUpTo reader limit)) <|> pure []

def many (reader : Reader α) : Reader (List α) := fun tokens =>
  manyUpTo reader tokens.length tokens

/-- Carries a value on through at most `limit` steps, as far as it can. -/
def iterateUpTo (step : α → Reader α) : Nat → α → Reader α
  | 0, a => pure a
  | limit + 1, a => (do iterateUpTo step limit (← step a)) <|> pure a

/-- Carries a value on through steps, as far as it can. -/
def iterate (step : α → Reader α) (a : α) : Reader α := fun tokens =>
  iterateUpTo step tokens.length a tokens

/-- At most `limit` items with commas between them and perhaps behind them, up to a closing sign. -/
def itemsUpTo (close : String) (item : Reader α) : Nat → Reader (List α)
  | 0 => failure
  | limit + 1 =>
    (do sign close; return []) <|> do
      let a ← item
      (do sign close; return [a]) <|> do
        sign ","
        return a :: (← itemsUpTo close item limit)

/-- The items of a list whose opening sign has been read, up to its closing one. -/
def items (close : String) (item : Reader α) : Reader (List α) := fun tokens =>
  itemsUpTo close item (tokens.length + 1) tokens

def separated (separator : String) (item : Reader α) : Reader (List α) := do
  let first ← item
  return first :: (← many (do sign separator; item))

def withSource (reader : Reader α) : Reader (α × String) := do
  let start ← get
  let a ← reader
  return (a, Token.sourceUpTo start (← get))

/-- What a statement holds last. Round and square brackets go on with a value only. -/
inductive Ending
  | value
  | other
  deriving DecidableEq, Repr

/-- Whether a statement goes on with a token, even if that begins a line. -/
def Ending.continuesWith (ending : Ending) (token : Token) : Bool :=
  match token.kind with
  | .sign =>
    match token.text.toList with
    | ['('] | ['['] => ending = .value
    | '+' :: cs => cs ≠ ['+']
    | '-' :: cs => cs ≠ ['-']
    | '!' :: cs => cs ≠ []
    | c :: _ => c ∈ [',', '.', ';', '*', '%', '>', '<', '=', '?', '^', '|', '&', '/', ':']
    | [] => false
  | .template | .templateHead => true
  | .word => token.text = "in" || token.text = "instanceof"
  | _ => false

/-- Whether a semicolon may be left out in front of a token. -/
def Ending.mayPrecede (ending : Ending) (token : Token) : Bool :=
  token.isSign "\x7d" || (token.beginsLine && !ending.continuesWith token)

/-- The end of a statement: a semicolon, or a place where one may be left out. -/
def endOfStatement (ending : Ending) : Reader Unit
  | [] => some ((), [])
  | token :: tokens =>
    if token.isSign ";" then some ((), tokens)
    else if ending.mayPrecede token then some ((), token :: tokens)
    else none

end Reader

inductive Pattern
  | plain (name : String)
  /-- The names that an object pattern binds without a default. -/
  | object (names : List String)
  | other
  deriving DecidableEq, Repr

def Pattern.names : Pattern → List String
  | .plain name => [name]
  | .object names => names
  | .other => []

/-- Where an expression stands: inside brackets, or exposed to the end of a line, which may end it. -/
inductive Place
  | enclosed
  | exposed
  deriving DecidableEq, Repr

/-- Readers of the parts of a script that may hold one another. The grammar is written over them. -/
structure Rules where
  exprAt : Place → Reader Expr
  type : Reader Unit
  pattern : Reader Pattern
  statement : Reader Statement

def Rules.expr (rules : Rules) : Reader Expr := rules.exprAt .enclosed

end SchemaAtlas.Script
