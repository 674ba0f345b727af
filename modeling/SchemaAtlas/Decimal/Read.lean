import SchemaAtlas.Text.Blank
import SchemaAtlas.Text.Digit

/-!
Reading numbers: digits of any script, with single underscores between them, a sign in front and
blanks around.
-/

set_option autoImplicit false

namespace SchemaAtlas.Decimal

open Text

/-- The digits a text goes on with and the text behind them. -/
def digitRun (afterDigit : Bool) : List Char → List Nat × List Char
  | [] => ([], [])
  | c :: cs =>
    match digitValue? c with
    | some digit =>
      let (digits, rest) := digitRun true cs
      (digit :: digits, rest)
    | none =>
      if afterDigit ∧ c = '_' ∧ (cs.head?.bind digitValue?).isSome then digitRun false cs
      else ([], c :: cs)

def ofDigits (digits : List Nat) : Nat := digits.foldl (fun n d => n * 10 + d) 0

/-- Whether there is a minus sign, and the text behind a sign. -/
def signed : List Char → Bool × List Char
  | '-' :: cs => (true, cs)
  | '+' :: cs => (false, cs)
  | cs => (false, cs)

/-- The whole number that a text is. -/
def readInteger? (cs : List Char) : Option Int :=
  let (negative, cs) := signed (trim cs)
  match digitRun false cs with
  | ([], _) | (_, _ :: _) => none
  | (digits, []) => some (if negative then -(ofDigits digits : Int) else ofDigits digits)

/-- The power of ten at the end of a number. -/
def readExponent? : List Char → Option Int
  | [] => some 0
  | mark :: cs =>
    if mark = 'e' ∨ mark = 'E' then
      let (negative, cs) := signed cs
      match digitRun false cs with
      | ([], _) | (_, _ :: _) => none
      | (digits, []) => some (if negative then -(ofDigits digits : Int) else ofDigits digits)
    else none

/-- The number of digits and a power of ten, as near as a floating point number comes. -/
def nearest (digits : List Nat) (exponent : Int) : Float :=
  if exponent + digits.length < -400 then 0
  else if 400 < exponent + digits.length ∧ ofDigits digits ≠ 0 then 1 / 0
  else Float.ofScientific (ofDigits digits) (exponent < 0) exponent.natAbs

/-- The number that a text is, which must be finite. -/
def readFinite? (cs : List Char) : Option Float :=
  let (negative, cs) := signed (trim cs)
  let (whole, rest) := digitRun false cs
  let (fraction, rest) :=
    match rest with
    | '.' :: rest => digitRun false rest
    | rest => ([], rest)
  if whole.isEmpty ∧ fraction.isEmpty then none
  else do
    let exponent ← readExponent? rest
    let x := nearest (whole ++ fraction) (exponent - fraction.length)
    if x.isInf then none else return if negative then -x else x

end SchemaAtlas.Decimal
