import SchemaAtlas.Text.Ranges
import SchemaAtlas.Text.WordTable

/-!
Word characters: letters, digits and numerals of any script, and the underscore.
-/

set_option autoImplicit false

namespace SchemaAtlas.Text

def isWord (c : Char) : Bool :=
  let n := c.toNat
  if n < 128 then
    (48 ≤ n && n ≤ 57) || (65 ≤ n && n ≤ 90) || n == 95 || (97 ≤ n && n ≤ 122)
  else inRanges n wordRanges

theorem isWord_of_isAlphanum {c : Char} (h : c.isAlphanum = true) : isWord c = true := by
  change
    ((decide (65 ≤ c.val ∧ c.val ≤ 90) || decide (97 ≤ c.val) && decide (c.val ≤ 122)) ||
      decide (48 ≤ c.val) && decide (c.val ≤ 57)) = true at h
  simp only [Bool.or_eq_true, Bool.and_eq_true, decide_eq_true_eq, UInt32.le_iff_toNat_le] at h
  have key : c.toNat = c.val.toNat := rfl
  have small : c.toNat < 128 := by
    rw [key]
    rcases h with (h | h) | h <;> exact Nat.lt_of_le_of_lt h.2 (by decide)
  rw [isWord, if_pos small]
  simp only [key, Bool.or_eq_true, Bool.and_eq_true, decide_eq_true_eq, beq_iff_eq]
  rcases h with (h | h) | h
  · exact .inl (.inl (.inr h))
  · exact .inr h
  · exact .inl (.inl (.inl h))

/-- A text that is not empty and holds word characters only. -/
def IsWordText (cs : List Char) : Prop := cs ≠ [] ∧ ∀ c ∈ cs, isWord c = true

instance (cs : List Char) : Decidable (IsWordText cs) := inferInstanceAs (Decidable (_ ∧ _))

/-- Whether a word begins or ends between the two characters, where `none` is an end of the text. -/
def atWordEdge (before after : Option Char) : Bool :=
  before.any isWord != after.any isWord

end SchemaAtlas.Text
