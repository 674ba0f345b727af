import SchemaAtlas.Decimal.Exact

/-!
Numbers with a fixed count of places behind the point, and numbers rounded to six digits.
-/

set_option autoImplicit false

namespace SchemaAtlas.Decimal

def sign (negative : Bool) : String := if negative then "-" else ""

/-- A count of units of the last of `places` places, written with a point. -/
def pointed (units places : Nat) : String :=
  let digits := digitsOf units
  let digits := List.replicate (places + 1 - digits.length) '0' ++ digits
  let whole := digits.take (digits.length - places)
  let rest := digits.drop (digits.length - places)
  String.ofList (if places = 0 then whole else whole ++ '.' :: rest)

def nonFinite (negative : Bool) : String := sign negative ++ "inf"

/-- The number rounded to `places` places behind the point. -/
def fixed (places : Nat) (x : Float) : String :=
  match Value.ofFloat x with
  | .notANumber => "nan"
  | .infinite negative => nonFinite negative
  | .finite negative mantissa exponent =>
    let (num, den) := binaryFraction mantissa exponent
    sign negative ++ pointed (roundDiv (num * Nat.pow 10 places) den) places

/-- An exponent of ten with its sign and at least two digits. -/
def exponentText (exponent : Int) : String :=
  let digits := digitsOf exponent.natAbs
  String.ofList
    ('e' :: (if exponent < 0 then '-' else '+') ::
      (List.replicate (2 - digits.length) '0' ++ digits))

def scientific (digits : List Char) (exponent : Int) : String :=
  match digits with
  | [] => ""
  | [d] => String.ofList [d] ++ exponentText exponent
  | d :: ds => String.ofList (d :: '.' :: ds) ++ exponentText exponent

/-- A text of digits with a point, without the zeros at its end and without a point there. -/
def dropTrailingZeros (digits : List Char) : List Char :=
  if '.' ∈ digits then
    let kept := (digits.reverse.dropWhile (· = '0')).reverse
    if kept.getLast? = some '.' then kept.dropLast else kept
  else digits

/-- The number rounded to six digits without trailing zeros; very large and very small numbers in
scientific notation. -/
def sixDigits (x : Float) : String :=
  match Value.ofFloat x with
  | .notANumber => "nan"
  | .infinite negative => nonFinite negative
  | .finite negative mantissa exponent =>
    if mantissa = 0 then sign negative ++ "0"
    else
      let fraction := binaryFraction mantissa exponent
      let leading := leadingExponent fraction.1 fraction.2
      let scaled := perTen fraction (leading - 5)
      let units := roundDiv scaled.1 scaled.2
      -- rounding may carry into a seventh digit
      let (units, leading) := if units = 1000000 then (100000, leading + 1) else (units, leading)
      let text :=
        if -4 ≤ leading ∧ leading < 6 then
          pointed units (5 - leading).toNat
        else
          let digits := (digitsOf units).reverse.dropWhile (· = '0')
          scientific digits.reverse leading
      sign negative ++ String.ofList (dropTrailingZeros text.toList)

end SchemaAtlas.Decimal
