/-!
Sets of code points as ascending lists of inclusive ranges.
-/

set_option autoImplicit false

namespace SchemaAtlas.Text

/-- Whether a number lies in one of the ranges, which must ascend. -/
def inRanges (n : Nat) : List (Nat × Nat) → Bool
  | [] => false
  | (first, last) :: ranges => if n < first then false else n ≤ last || inRanges n ranges

end SchemaAtlas.Text
