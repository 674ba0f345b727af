import SchemaAtlas.Fault

/-!
Positions of tables on a diagram. The arithmetic is a parameter: it runs on floating point numbers
and can be reasoned about in any number system.
-/

set_option autoImplicit false

namespace SchemaAtlas

/-- Numbers that positions can be computed with. -/
class Coordinate (R : Type) extends Add R, Sub R, Mul R where
  ofInt : Int → R
  isNegative : R → Bool

instance : Coordinate Float where
  ofInt n := Float.ofInt n
  isNegative x := x < 0

instance : Coordinate Int where
  ofInt n := n
  isNegative n := n < 0

structure Position (R : Type) where
  x : R
  y : R
  deriving DecidableEq, Repr

def Position.origin {R : Type} [Coordinate R] : Position R :=
  ⟨Coordinate.ofInt 0, Coordinate.ofInt 0⟩

/-- How tables are laid out: from left to right with a random sideways shift of at most `jitter`,
one row further down after every `perRow` tables. -/
structure Layout (R : Type) where
  spacingX : R
  spacingY : R
  perRow : Nat
  jitter : R
  perRow_pos : 0 < perRow

namespace Layout

variable {R : Type} [Coordinate R]

def margin : R := Coordinate.ofInt 50

def default : Layout R where
  spacingX := Coordinate.ofInt 250
  spacingY := Coordinate.ofInt 200
  perRow := 3
  jitter := Coordinate.ofInt 50
  perRow_pos := by decide

/-- The layout with these distances, unless a row would hold no table. -/
def ofFields? (spacingX spacingY : R) (perRow : Int) (jitter : R) : Except Refusal (Layout R) :=
  if h : perRow < 1 then .error .rowOfNoTables
  else .ok { spacingX, spacingY, perRow := perRow.toNat, jitter, perRow_pos := by omega }

/-- The position of the table at place `index`, for a random number `draw` between zero and one. -/
def position (layout : Layout R) (draw : R) (index : Int) : Position R where
  x := margin + Coordinate.ofInt index * layout.spacingX +
    (draw * Coordinate.ofInt 2 * layout.jitter - layout.jitter)
  y := margin + Coordinate.ofInt (index.fdiv layout.perRow) * layout.spacingY

end Layout

end SchemaAtlas
