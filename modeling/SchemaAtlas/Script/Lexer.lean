import SchemaAtlas.Script.Token

/-!
Splitting a TypeScript text into tokens. Every character belongs to a token or to the gap before
one; what begins no token becomes a stray one. A `>` always stands alone, so that it can close type
arguments; whoever reads operators joins them again.
-/

set_option autoImplicit false

namespace SchemaAtlas.Script

open Text

/-- Spaces, tabs, line and page breaks, and the characters without a width. -/
def isSpacing (c : Char) : Bool :=
  let n := c.toNat
  (9 ≤ n && n ≤ 13) || n == 0x20 || n == 0xA0 || n == 0x1680 || (0x2000 ≤ n && n ≤ 0x200B) ||
    n == 0x2028 || n == 0x2029 || n == 0x202F || n == 0x205F || n == 0x2060 || n == 0x3000 ||
    n == 0xFEFF

def isLineEnd (c : Char) : Bool := c = '\n' || c = '\u2028' || c = '\u2029'

/-- The ASCII characters that no name holds. -/
def nameBreakers : List Char := ":;\x60\"'@#.,|^&<=>+-*/\\%?!~()[]\x7b\x7d".toList

def isNamePart (c : Char) : Bool := 32 ≤ c.toNat && !isSpacing c && c ∉ nameBreakers

def isNameStart (c : Char) : Bool := isNamePart c && !c.isDigit

def isHexDigit (c : Char) : Bool := c.isDigit || ('a' ≤ c && c ≤ 'f') || ('A' ≤ c && c ≤ 'F')

/-- Whether a text begins with `n` hexadecimal digits. -/
def beginsWithHex (n : Nat) (cs : List Char) : Bool :=
  (cs.take n).length = n && (cs.take n).all isHexDigit

/-- The length of a character number in a text that begins with its `u`. -/
def codePointLength? : List Char → Option Nat
  | 'u' :: '{' :: cs =>
    let digits := cs.takeWhile isHexDigit
    if digits.isEmpty || (cs.drop digits.length).head? ≠ some '}' then none
    else some (digits.length + 3)
  | 'u' :: cs => if beginsWithHex 4 cs then some 5 else none
  | _ => none

/-- The length of an escape in a text behind its backslash. -/
def escapeLength? : List Char → Option Nat
  | [] => none
  | '\r' :: '\n' :: _ => some 2
  | 'x' :: cs => if beginsWithHex 2 cs then some 3 else none
  | 'u' :: cs => codePointLength? ('u' :: cs)
  | _ :: _ => some 1

/-- The characters with which a name goes on; `skip` of them belong to an escape. -/
def nameFrom (skip : Nat) : List Char → List Char
  | [] => []
  | c :: cs =>
    match skip with
    | skip + 1 => c :: nameFrom skip cs
    | 0 =>
      if isNamePart c then c :: nameFrom 0 cs
      else if c = '\\' then
        match codePointLength? cs with
        | some n => c :: nameFrom n cs
        | none => []
      else []

/-- The characters of a string behind its opening quote, with the closing one. -/
def stringFrom (quote : Char) (skip : Nat) : List Char → Option (List Char)
  | [] => none
  | c :: cs =>
    match skip with
    | skip + 1 => (stringFrom quote skip cs).map (c :: ·)
    | 0 =>
      if c = quote then some [c]
      else if c = '\n' || c = '\r' then none
      else if c = '\\' then
        match escapeLength? cs with
        | some n => (stringFrom quote n cs).map (c :: ·)
        | none => none
      else (stringFrom quote 0 cs).map (c :: ·)

/-- The characters of a template up to its end or to its next substitution, and whether it ends. -/
def templateFrom (skip : Nat) : List Char → Option (List Char × Bool)
  | [] => none
  | c :: cs =>
    match skip with
    | skip + 1 => (templateFrom skip cs).map fun (text, ends) => (c :: text, ends)
    | 0 =>
      if c = '\x60' then some ([c], true)
      else if c = '$' ∧ cs.head? = some '{' then some (['$', '{'], false)
      else if c = '\\' then
        match escapeLength? cs with
        | some n => (templateFrom n cs).map fun (text, ends) => (c :: text, ends)
        | none => none
      else (templateFrom 0 cs).map fun (text, ends) => (c :: text, ends)

/-- The characters of a regular expression behind its opening slash, with the closing one. -/
def regexFrom (inClass escaped : Bool) : List Char → Option (List Char)
  | [] => none
  | c :: cs =>
    if c = '\n' then none
    else if escaped then (regexFrom inClass false cs).map (c :: ·)
    else if c = '\\' then (regexFrom inClass true cs).map (c :: ·)
    else if inClass then (regexFrom (c ≠ ']') false cs).map (c :: ·)
    else if c = '/' then some [c]
    else (regexFrom (c = '[') false cs).map (c :: ·)

def regexText? : List Char → Option (List Char)
  | '/' :: cs => do
    let body ← regexFrom false false cs
    let flags := (cs.drop body.length).takeWhile Char.isLower
    return '/' :: body ++ flags
  | _ => none

/-- The digits of a class a text begins with, where single underscores may stand between digits. -/
def digitsFrom (isDigit : Char → Bool) : List Char → List Char
  | [] => []
  | c :: cs =>
    if isDigit c then c :: digitsFrom isDigit cs
    else
      match c, cs with
      | '_', d :: _ => if isDigit d then c :: digitsFrom isDigit cs else []
      | _, _ => []

/-- The digits of a text that does not begin with an underscore. -/
def digits (isDigit : Char → Bool) (cs : List Char) : List Char :=
  if cs.head? = some '_' then [] else digitsFrom isDigit cs

/-- The power of ten of a number, when there is one. -/
def exponent : List Char → List Char
  | mark :: cs =>
    if mark = 'e' ∨ mark = 'E' then
      let sign := cs.takeWhile fun c => c = '+' || c = '-'
      let power := digits Char.isDigit (cs.drop sign.length)
      if 1 < sign.length ∨ power.isEmpty then [] else mark :: sign ++ power
    else []
  | [] => []

def prefixedNumber? : List Char → Option (List Char)
  | '0' :: mark :: cs =>
    let isDigit? : Option (Char → Bool) :=
      if mark = 'x' ∨ mark = 'X' then some isHexDigit
      else if mark = 'b' ∨ mark = 'B' then some fun c => c = '0' || c = '1'
      else if mark = 'o' ∨ mark = 'O' then some fun c => '0' ≤ c && c ≤ '7'
      else none
    match isDigit? with
    | some isDigit =>
      let run := digits isDigit cs
      if run.isEmpty then none
      else some ('0' :: mark :: run ++ (cs.drop run.length).takeWhile (· = 'n') |>.take (run.length + 3))
    | none => none
  | _ => none

def decimalNumber? (cs : List Char) : Option (List Char) :=
  let whole := digits Char.isDigit cs
  let rest := cs.drop whole.length
  match whole, rest with
  | [], '.' :: rest =>
    let fraction := digits Char.isDigit rest
    if fraction.isEmpty then none
    else some ('.' :: fraction ++ exponent (rest.drop fraction.length))
  | [], _ => none
  | whole, 'n' :: _ => some (whole ++ ['n'])
  | whole, '.' :: rest =>
    let fraction := digits Char.isDigit rest
    some (whole ++ '.' :: fraction ++ exponent (rest.drop fraction.length))
  | whole, rest => some (whole ++ exponent rest)

def numberText? (cs : List Char) : Option (List Char) :=
  (prefixedNumber? cs).or (decimalNumber? cs)

/-- The signs, a longer one before those it begins with. -/
def signs : List (List Char) :=
  ["...", "===", "!==", "**=", "<<=", "&&=", "||=", "??=", "=>", "==", "!=", "<=", "<<", "&&", "||",
    "??", "?.", "++", "--", "+=", "-=", "*=", "/=", "%=", "&=", "|=", "^=", "**", "\x7b", "\x7d",
    "(", ")", "[", "]", ";", ",", "<", ">", "=", "+", "-", "*", "/", "%", "&", "|", "^", "!", "~",
    "?", ":", ".", "@"].map String.toList

/-- The sign a text begins with. A question mark before a decimal fraction stands alone. -/
def signText? (cs : List Char) : Option (List Char) :=
  match cs with
  | '?' :: '.' :: c :: _ => if c.isDigit then some ['?'] else some ['?', '.']
  | _ => signs.find? (beginsWith · cs)

def comment? : List Char → Option (List Char)
  | '/' :: '/' :: cs => some ('/' :: '/' :: cs.takeWhile fun c => !isLineEnd c && c ≠ '\r')
  | '/' :: '*' :: cs => (closing cs).map fun text => '/' :: '*' :: text
  | _ => none
where
  /-- The rest of a comment up to its closing marks. -/
  closing : List Char → Option (List Char)
    | [] => none
    | c :: cs =>
      if c = '*' ∧ cs.head? = some '/' then some ['*', '/'] else (closing cs).map (c :: ·)

structure ScanState where
  /-- The gap so far, last character first. -/
  gap : List Char := []
  line : Nat := 1
  /-- Whether the last token ends an operand, so that a slash behind it divides. -/
  afterOperand : Bool := false
  /-- For each open curly bracket, innermost first, whether it belongs to a template. -/
  braces : List Bool := []
  deriving DecidableEq, Repr

namespace ScanState

/-- Keywords behind which an operand begins. -/
def operandIntroducers : List String :=
  ["return", "typeof", "instanceof", "in", "new", "delete", "void", "throw", "case", "do", "else",
    "await", "yield"]

def endsOperand (state : ScanState) (kind : TokenKind) (text : String) : Bool :=
  match kind with
  | .word => text ∉ operandIntroducers
  | .sign =>
    text = ")" || text = "]" || text = "\x7d" || ((text = "!" || text = "++" || text = "--") &&
      state.afterOperand)
  | .templateHead | .templateMiddle => false
  | _ => true

def behind (state : ScanState) (kind : TokenKind) (text : String) : ScanState :=
  { state with
    gap := []
    afterOperand := state.endsOperand kind text
    braces :=
      match kind with
      | .templateHead => true :: state.braces
      | .templateTail => state.braces.drop 1
      | .sign =>
        if text = "\x7b" then false :: state.braces
        else if text = "\x7d" then state.braces.drop 1
        else state.braces
      | _ => state.braces }

end ScanState

/-- The kind and the text of the token a text begins with. -/
def lexeme (state : ScanState) (cs : List Char) : TokenKind × List Char :=
  match cs with
  | [] => (.stray, [])
  | c :: rest =>
    if c = '\'' ∨ c = '"' then
      match stringFrom c 0 rest with
      | some text => (.string, c :: text)
      | none => (.stray, [c])
    else if c = '\x60' then
      match templateFrom 0 rest with
      | some (text, ends) => (if ends then .template else .templateHead, c :: text)
      | none => (.stray, [c])
    else if c = '}' ∧ state.braces.head? = some true then
      match templateFrom 0 rest with
      | some (text, ends) => (if ends then .templateTail else .templateMiddle, c :: text)
      | none => (.stray, [c])
    else if isNameStart c ∨ c = '\\' then
      match nameFrom 0 cs with
      | [] => (.stray, [c])
      | text => (.word, text)
    else if c = '#' then
      match rest with
      | d :: _ => if isNameStart d then (.privateName, c :: nameFrom 0 rest) else (.stray, [c])
      | [] => (.stray, [c])
    else
      match numberText? cs with
      | some text => (.number, text)
      | none =>
        match if state.afterOperand then none else regexText? cs with
        | some text => (.regex, text)
        | none =>
          match signText? cs with
          | some text => (.sign, text)
          | none => (.stray, [c])

/-- The tokens of a text; `skip` characters still belong to the last token or gap. -/
def tokensFrom (state : ScanState) (skip : Nat) : List Char → List Token
  | [] => []
  | c :: cs =>
    let line := if c = '\n' then state.line + 1 else state.line
    match skip with
    | skip + 1 => tokensFrom { state with line } skip cs
    | 0 =>
      if isSpacing c then tokensFrom { state with gap := c :: state.gap, line } 0 cs
      else
        match comment? (c :: cs) with
        | some text =>
          tokensFrom { state with gap := text.reverse ++ state.gap, line } (text.length - 1) cs
        | none =>
          let (kind, chars) := lexeme state (c :: cs)
          let text := String.ofList chars
          { kind, text, gap := state.gap.reverse, line := state.line } ::
            tokensFrom { state.behind kind text with line } (chars.length - 1) cs

/-- A text without the line of an interpreter call at its front. -/
def dropInterpreterLine : List Char → List Char
  | '#' :: '!' :: cs => cs.dropWhile (· ≠ '\n')
  | cs => cs

def tokens (cs : List Char) : List Token := tokensFrom {} 0 (dropInterpreterLine cs)

end SchemaAtlas.Script
