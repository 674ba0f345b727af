import SchemaAtlas.Proofs.Text.Splits
import SchemaAtlas.Text.Comment

/-!
Texts that hold no comment and in which every bracket and every string is closed, put together from
words, strings and groups.
-/

set_option autoImplicit false

namespace SchemaAtlas.Text

/-- A character that neither a string nor a bracket nor a comment begins or ends with. -/
def isTidy (c : Char) : Bool := isPlain c && c ≠ '/'

theorem isTidy_of_isWord {c : Char} (word : isWord c = true) : isTidy c = true := by
  have other : c ≠ '/' := by
    rintro rfl
    cases word
  simp [isTidy, isPlain_of_isWord word, other]

/-- A text with all brackets and strings closed, and without slashes outside its strings. -/
structure Tidy (cs : List Char) : Prop where
  nested : IsNested cs
  slashless : some '/' ∉ outline .code cs

theorem uncommented_of_slashless {mode : Mode} {cs : List Char}
    (slashless : some '/' ∉ outline mode cs) : Uncommented mode cs := by
  induction cs generalizing mode with
  | nil => trivial
  | cons c cs ih =>
    rw [outline, List.mem_cons, not_or] at slashless
    refine ⟨?_, ih slashless.2⟩
    rintro ⟨rfl, rfl, -⟩
    exact slashless.1 rfl

namespace Tidy

theorem nil : Tidy [] := ⟨.nil, by simp [outline]⟩

theorem append {as bs : List Char} (first : Tidy as) (second : Tidy bs) : Tidy (as ++ bs) where
  nested := first.nested.append second.nested
  slashless := by simp [first.nested.run, first.slashless, second.slashless]

theorem of_tidy {cs : List Char} (tidy : ∀ c ∈ cs, isTidy c = true) : Tidy cs where
  nested := .of_plain fun c member => by
    have here := tidy c member
    rw [isTidy, Bool.and_eq_true] at here
    exact here.1
  slashless := fun member => by
    have here := tidy '/' (mem_of_mem_outline member)
    cases here

theorem word {cs : List Char} (word : IsWordText cs) : Tidy cs :=
  .of_tidy fun c member => isTidy_of_isWord (word.2 c member)

theorem string {quote : Char} {inside : List Char} (quotes : isQuote quote = true)
    (quotable : IsQuotable quote inside) : Tidy (quote :: (inside ++ [quote])) where
  nested := .string quotes quotable .nil
  slashless := by
    have gaps := outline_string quotes quotable []
    rw [List.cons_append] at gaps
    rw [gaps]
    simp [outline]

theorem group {opener closer : Char} {inside : List Char} (pair : closerOf? opener = some closer)
    (within : Tidy inside) : Tidy (opener :: (inside ++ [closer])) where
  nested := .group pair within.nested .nil
  slashless := by
    have marks : opener ≠ '/' ∧ closer ≠ '/' := by
      unfold closerOf? at pair
      split at pair <;> cases pair <;> decide
    have outlined := outline_group pair within.nested []
    rw [List.cons_append] at outlined
    rw [outlined]
    simp [outline, within.slashless, Ne.symm marks.1, Ne.symm marks.2]

theorem uncommented {cs : List Char} (tidy : Tidy cs) : Uncommented .code cs :=
  uncommented_of_slashless tidy.slashless

end Tidy

/-- A tidy text whose commas stand between brackets or in strings. -/
structure TidyItem (cs : List Char) : Prop extends Tidy cs where
  stays : Stays (· = ',') 0 cs

namespace TidyItem

theorem nil : TidyItem [] := ⟨.nil, .nil⟩

theorem append {as bs : List Char} (first : TidyItem as) (second : TidyItem bs) :
    TidyItem (as ++ bs) :=
  ⟨first.toTidy.append second.toTidy, first.stays.append second.stays⟩

theorem of_tidy {cs : List Char} (tidy : ∀ c ∈ cs, isTidy c = true) (whole : ',' ∉ cs) :
    TidyItem cs where
  toTidy := .of_tidy tidy
  stays := .plain (fun c member => (Bool.and_eq_true _ _ ▸ tidy c member).1) fun c member => by
    rw [decide_eq_false_iff_not]
    rintro rfl
    exact whole member

theorem word {cs : List Char} (word : IsWordText cs) : TidyItem cs :=
  .of_tidy (fun c member => isTidy_of_isWord (word.2 c member)) (word.not_mem (by decide))

theorem group {opener closer : Char} {inside : List Char} (pair : closerOf? opener = some closer)
    (within : Tidy inside) : TidyItem (opener :: (inside ++ [closer])) where
  toTidy := .group pair within
  stays := .group pair within.nested (by decide)

end TidyItem

end SchemaAtlas.Text
