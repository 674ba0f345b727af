import SchemaAtlas.Proofs.Blocks.Written
import SchemaAtlas.Proofs.Text.Strings

/-!
Attributes with a string for an argument. The string is on the line of its attribute, whatever
brackets it holds.
-/

set_option autoImplicit false

namespace SchemaAtlas.Blocks.Written

open Text

namespace Attribute

/-- The attribute `@name("content")`. -/
def quoting (name content : String) : Attribute where
  name
  args := some ("\"" ++ content ++ "\"")

theorem text_quoting (name content : String) : (quoting name content).text =
    '@' :: (name.toList ++ '(' :: '"' :: (content.toList ++ ['"', ')'])) := by
  simp [quoting, text]

theorem onLine_quoting {name content : String} (named : name ≠ "")
    (inside : ∀ c ∈ name.toList, Blocks.Attribute.isNameChar c = true)
    (plain : IsContent content.toList) : (quoting name content).OnLine where
  named := named
  name := inside
  args := by
    rintro _ ⟨⟩
    have string : IsInline ('"' :: (content.toList ++ ['"'])) := .string rfl plain.quotable
    have unbroken : '\n' ∉ content.toList := fun member => (plain _ member).2.2 rfl
    have whole : ("\"" ++ content ++ "\"").toList = '"' :: (content.toList ++ ['"']) := by simp
    rw [whole]
    exact ⟨string, by simp [unbroken]⟩

end Attribute

end SchemaAtlas.Blocks.Written
