import SchemaAtlas.Text.Pattern

/-!
Tokens of a TypeScript text. Each keeps the blanks and comments in front of it, so that the text of
any run of tokens can be given back as it was written.
-/

set_option autoImplicit false

namespace SchemaAtlas.Script

inductive TokenKind
  /-- A name or a keyword. -/
  | word
  /-- A name behind a number sign. -/
  | privateName
  | number
  | string
  /-- A template without substitutions. -/
  | template
  /-- A template up to its first substitution, between two of them, and behind the last. -/
  | templateHead
  | templateMiddle
  | templateTail
  | regex
  | sign
  /-- A character that begins no token. -/
  | stray
  deriving DecidableEq, Repr

structure Token where
  kind : TokenKind
  text : String
  /-- The blanks and comments between this token and the one before it. -/
  gap : List Char := []
  line : Nat := 1
  deriving DecidableEq, Repr

namespace Token

def is (token : Token) (kind : TokenKind) (text : String) : Bool :=
  token.kind = kind && token.text = text

def isSign (token : Token) (text : String) : Bool := token.is .sign text

def isWord (token : Token) (text : String) : Bool := token.is .word text

/-- Whether a line ends between the token and the one before it. -/
def beginsLine (token : Token) : Bool :=
  token.gap.any fun c => c = '\n' || c = '\u2028' || c = '\u2029'

/-- The text of a run of tokens, without the gap in front of it. -/
def source (tokens : List Token) : String :=
  match tokens with
  | [] => ""
  | first :: rest =>
    first.text ++ String.join (rest.map fun token => String.ofList token.gap ++ token.text)

/-- The text of the tokens from `start` on, up to those that are left. -/
def sourceUpTo (start rest : List Token) : String := source (start.take (start.length - rest.length))

/-- How far the brackets around a place are open behind a token. -/
def depthBehind (depth : Nat) (token : Token) : Nat :=
  match token.kind, token.text with
  | .sign, "(" | .sign, "[" | .sign, "\x7b" => depth + 1
  | .sign, ")" | .sign, "]" | .sign, "\x7d" => depth - 1
  | .templateHead, _ => depth + 1
  | .templateTail, _ => depth - 1
  | _, _ => depth

/-- The tokens behind the bracket that closes the outermost of `depth` open ones. -/
def behindGroup (depth : Nat) : List Token → List Token
  | [] => []
  | token :: tokens =>
    if token.depthBehind depth = 0 then tokens else behindGroup (token.depthBehind depth) tokens

end Token

end SchemaAtlas.Script
