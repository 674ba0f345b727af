import SchemaAtlas.Decimal.Fixed

/-!
The shortest decimal text that reads back as the same floating point number.
-/

set_option autoImplicit false

namespace SchemaAtlas.Decimal

/-- Whether a decimal `units · 10 ^ exponent` reads back as `mantissa · 2 ^ q`: it lies between the
midpoints to the neighbours of that number, or on one of them if the mantissa is even. Below a power
of two the neighbour is half as far away. -/
def readsBack (mantissa : Nat) (q : Int) (units : Nat) (exponent : Int) : Bool :=
  -- all three numbers in quarters of the last binary place
  let (num, den) := perTen (units * 4, 1) (-exponent)
  let (num, den) := (num * Nat.pow 2 (-q).toNat, den * Nat.pow 2 q.toNat)
  let below :=
    if mantissa = Nat.pow 2 52 ∧ -1074 < q then 4 * mantissa - 1 else 4 * mantissa - 2
  let above := 4 * mantissa + 2
  if mantissa % 2 = 0 then below * den ≤ num ∧ num ≤ above * den
  else below * den < num ∧ num < above * den

/-- The decimal with `count` digits nearest to a number, if it or its other neighbour on that grid
reads back: the digits as a natural number, and the exponent of the last one. -/
def candidate? (mantissa : Nat) (q : Int) (leading : Int) (count : Nat) : Option (Nat × Int) :=
  let last := leading + 1 - count
  let (num, den) := perTen (binaryFraction mantissa q) last
  let near := roundDiv num den
  let far := if num < near * den then near - 1 else near + 1
  if readsBack mantissa q near last then some (near, last)
  else if readsBack mantissa q far last then some (far, last)
  else none

/-- The fewest digits that read back. Seventeen always do. -/
def shortestDigits (mantissa : Nat) (q : Int) : Nat × Int :=
  let (num, den) := binaryFraction mantissa q
  let leading := leadingExponent num den
  match (List.range 17).findSome? fun n => candidate? mantissa q leading (n + 1) with
  | some found => found
  | none => (roundDiv num den, 0)

/-- A decimal without zeros at the end of its digits; `fuel` bounds their count. -/
def dropZeros : Nat → Nat → Int → Nat × Int
  | 0, units, last => (units, last)
  | fuel + 1, units, last =>
    if units % 10 = 0 then dropZeros fuel (units / 10) (last + 1) else (units, last)

/-- How a number is written: positionally with at least one place behind the point if its first
digit stands between the fourth place behind the point and the sixteenth before it, in scientific
notation otherwise. -/
def shortest (x : Float) : String :=
  match Value.ofFloat x with
  | .notANumber => "NaN"
  | .infinite negative => sign negative ++ "Infinity"
  | .finite negative mantissa q =>
    if mantissa = 0 then sign negative ++ "0.0"
    else
      let (units, last) := shortestDigits mantissa q
      let (units, last) := dropZeros 17 units last
      let digits := digitsOf units
      let leading := last + digits.length - 1
      sign negative ++
        if -4 ≤ leading ∧ leading < 16 then
          if 0 ≤ last then pointed (units * Nat.pow 10 (last.toNat + 1)) 1
          else pointed units (-last).toNat
        else scientific digits leading

end SchemaAtlas.Decimal
