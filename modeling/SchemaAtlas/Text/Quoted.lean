import SchemaAtlas.Text.HiddenTable
import SchemaAtlas.Text.Ranges

/-!
Quoted texts in messages: between single quotes, or between double ones if only single ones stand
inside. Quotes of the kind used, backslashes and characters without a form are escaped.
-/

set_option autoImplicit false

namespace SchemaAtlas.Text

/-- Whether a character has no form of its own in print. -/
def isHidden (c : Char) : Bool :=
  let n := c.toNat
  if n < 128 then n < 32 || n = 127 else inRanges n hiddenRanges

def hexDigits : Nat → Nat → List Char
  | 0, _ => []
  | width + 1, n => hexDigits width (n / 16) ++ [Nat.digitChar (n % 16)]

def escapeByNumber (c : Char) : List Char :=
  let n := c.toNat
  if n < 256 then '\\' :: 'x' :: hexDigits 2 n
  else if n < 65536 then '\\' :: 'u' :: hexDigits 4 n
  else '\\' :: 'U' :: hexDigits 8 n

def quoteChar (quote c : Char) : List Char :=
  if c = quote || c = '\\' then ['\\', c]
  else if c = '\n' then ['\\', 'n']
  else if c = '\r' then ['\\', 'r']
  else if c = '\t' then ['\\', 't']
  else if isHidden c then escapeByNumber c
  else [c]

def quoted (text : String) : String :=
  let cs := text.toList
  let quote := if '\'' ∈ cs ∧ '"' ∉ cs then '"' else '\''
  String.ofList (quote :: cs.flatMap (quoteChar quote) ++ [quote])

end SchemaAtlas.Text
