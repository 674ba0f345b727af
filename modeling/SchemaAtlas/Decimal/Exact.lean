/-!
Exact arithmetic on floating point numbers: a finite number is a natural number times a power of
two, and rounding to a decimal grid is a division of natural numbers.
-/

set_option autoImplicit false

namespace SchemaAtlas.Decimal

inductive Value
  | finite (negative : Bool) (mantissa : Nat) (exponent : Int)
  | infinite (negative : Bool)
  | notANumber
  deriving DecidableEq, Repr

/-- The value that 64 bits stand for: a sign, eleven bits of exponent, and the fraction. -/
def Value.ofBits (bits : Nat) : Value :=
  let negative := bits / Nat.pow 2 63 % 2 = 1
  let exponent : Nat := bits / Nat.pow 2 52 % 2048
  let fraction := bits % Nat.pow 2 52
  if exponent = 2047 then if fraction = 0 then .infinite negative else .notANumber
  else if exponent = 0 then .finite negative fraction (-1074)
  else .finite negative (Nat.pow 2 52 + fraction) (exponent - 1075)

def Value.ofFloat (x : Float) : Value := Value.ofBits x.toBits.toNat

/-- The nearest natural number to a quotient; a half goes to the even neighbour. -/
def roundDiv (num den : Nat) : Nat :=
  let q := num / den
  let r := num % den
  if 2 * r < den then q else if den < 2 * r then q + 1 else if q % 2 = 0 then q else q + 1

/-- `mantissa · 2 ^ exponent` as a fraction. -/
def binaryFraction (mantissa : Nat) (exponent : Int) : Nat × Nat :=
  (mantissa * Nat.pow 2 exponent.toNat, Nat.pow 2 (-exponent).toNat)

def perTen (fraction : Nat × Nat) (exponent : Int) : Nat × Nat :=
  (fraction.1 * Nat.pow 10 (-exponent).toNat, fraction.2 * Nat.pow 10 exponent.toNat)

def digitsOf (n : Nat) : List Char := Nat.toDigits 10 n

/-- The exponent of the first digit of a positive fraction: ten to it is at most the fraction, and
the next power is larger. -/
def leadingExponent (num den : Nat) : Int :=
  if den ≤ num then (digitsOf (num / den)).length - 1
  else
    -- the quotient den / num has as many digits as there are steps to the first digit
    let steps := (digitsOf (den / num)).length
    if num * Nat.pow 10 (steps - 1) = den then -(steps - 1 : Int) else -steps

end SchemaAtlas.Decimal
