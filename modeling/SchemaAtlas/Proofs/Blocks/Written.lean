import SchemaAtlas.Blocks.Attribute
import SchemaAtlas.Blocks.Written
import SchemaAtlas.Proofs.Text.Headers
import SchemaAtlas.Proofs.Text.Tidy

/-!
Schemas that can be written in blocks, and what their text is like: on every line of a block all
brackets and strings are closed, and no line holds a comment or the header of a block.
-/

set_option autoImplicit false

namespace SchemaAtlas.Blocks.Written

open Text

/-- Text as it may stand inside a block: brackets and strings are closed, and curly brackets and the
marks of comments stand inside strings only. -/
structure IsInline (cs : List Char) : Prop where
  nested : IsNested cs
  braceless : Braceless cs
  uncommented : Uncommented .code cs

/-- Text as it may stand between the parentheses of an attribute. A header, which takes a curly
bracket, could only stand inside a string of it. -/
structure IsArguments (cs : List Char) : Prop extends IsInline cs where
  unbroken : '\n' ∉ cs
  headerless : Headerless ['e', 'n', 'u', 'm'] cs

/-- Without curly brackets it is enough that all else is closed, on one line and no comment. -/
theorem IsArguments.of_braceless {cs : List Char} (nested : IsNested cs) (opening : '{' ∉ cs)
    (closing : '}' ∉ cs) (uncommented : Uncommented .code cs) (unbroken : '\n' ∉ cs) :
    IsArguments cs where
  nested := nested
  braceless := ⟨nested.run, fun member => opening (mem_of_mem_outline member),
    fun member => closing (mem_of_mem_outline member)⟩
  uncommented := uncommented
  unbroken := unbroken
  headerless := .of_braceless opening

structure Attribute.WellFormed (attr : Attribute) : Prop where
  named : attr.name ≠ ""
  name : ∀ c ∈ attr.name.toList, Blocks.Attribute.isNameChar c = true
  args : ∀ args ∈ attr.args, IsArguments args.toList

structure Field.WellFormed (field : Field) : Prop where
  name : IsWordText field.name.toList
  type : IsWordText field.type.toList
  attributes : ∀ attr ∈ field.attributes, attr.WellFormed

/-- An attribute that can stand on a line of a block, whatever headers its strings hold. -/
structure Attribute.OnLine (attr : Attribute) : Prop where
  named : attr.name ≠ ""
  name : ∀ c ∈ attr.name.toList, Blocks.Attribute.isNameChar c = true
  args : ∀ args ∈ attr.args, IsInline args.toList ∧ '\n' ∉ args.toList

structure Field.OnLine (field : Field) : Prop where
  name : IsWordText field.name.toList
  type : IsWordText field.type.toList
  attributes : ∀ attr ∈ field.attributes, attr.OnLine

theorem Attribute.WellFormed.onLine {attr : Attribute} (formed : attr.WellFormed) : attr.OnLine where
  named := formed.named
  name := formed.name
  args args held := ⟨(formed.args args held).toIsInline, (formed.args args held).unbroken⟩

theorem Field.WellFormed.onLine {field : Field} (formed : field.WellFormed) : field.OnLine where
  name := formed.name
  type := formed.type
  attributes attr member := (formed.attributes attr member).onLine

structure Model.WellFormed (model : Model) : Prop where
  name : IsWordText model.name.toList
  fields : ∀ field ∈ model.fields, field.WellFormed

/-- Names and values are words, and what is written in parentheses ends there. -/
def Block.WellFormed : Block → Prop
  | .enumeration enum =>
    IsWordText enum.name.toList ∧ ∀ value ∈ enum.values, IsWordText value.toList
  | .model declared => declared.WellFormed

/-- A schema that can be written: some blocks, no two models of which have the same name. -/
structure WellFormed (blocks : List Block) : Prop where
  some : blocks ≠ []
  each : ∀ block ∈ blocks, block.WellFormed
  distinct : ((models blocks).map (·.name)).Nodup

namespace WellFormed

variable {blocks : List Block}

theorem model (formed : WellFormed blocks) {model : Model} (member : model ∈ models blocks) :
    model.WellFormed := by
  obtain ⟨block, inside, same⟩ := List.mem_filterMap.mp member
  have here := formed.each block inside
  cases block with
  | enumeration enum => cases same
  | model declared => cases same; exact here

theorem declares (formed : WellFormed blocks) : ¬ (models blocks = [] ∧ enumerations blocks = []) := by
  rintro ⟨noModels, noEnums⟩
  obtain ⟨block, rest, rfl⟩ := List.exists_cons_of_ne_nil formed.some
  cases block with
  | enumeration enum => cases noEnums
  | model declared => cases noModels

end WellFormed

/-- Characters that nothing begins or ends with. -/
def isCalm (c : Char) : Bool := isPlain c && c ≠ '/' && c ≠ '*'

theorem isCalm_of_isWord {c : Char} (word : isWord c = true) : isCalm c = true := by
  have slash : c ≠ '/' := by
    rintro rfl
    cases word
  have star : c ≠ '*' := by
    rintro rfl
    cases word
  simp [isCalm, isPlain_of_isWord word, slash, star]

theorem isCalm_of_isNameChar {c : Char} (inside : Blocks.Attribute.isNameChar c = true) :
    isCalm c = true := by
  simp only [Blocks.Attribute.isNameChar, Bool.or_eq_true, decide_eq_true_eq] at inside
  rcases inside with word | rfl
  · exact isCalm_of_isWord word
  · rfl

namespace IsInline

theorem nil : IsInline [] where
  nested := .nil
  braceless := ⟨rfl, by simp [outline], by simp [outline]⟩
  uncommented := trivial

theorem cons {c : Char} {cs : List Char} (calm : isCalm c = true) (rest : IsInline cs) :
    IsInline (c :: cs) := by
  simp only [isCalm, Bool.and_eq_true, decide_eq_true_eq] at calm
  obtain ⟨⟨plain, slash⟩, -⟩ := calm
  have parts := plain
  simp only [isPlain, Bool.and_eq_true, Bool.not_eq_true'] at parts
  obtain ⟨⟨unquoted, unopened⟩, unclosed⟩ := parts
  refine ⟨.plain plain rest.nested, ⟨?_, ?_, ?_⟩, ?_, ?_⟩
  · simpa [Mode.next_code unquoted] using rest.braceless.run
  · rw [outline_code unquoted]
    refine List.not_mem_cons_of_ne_of_not_mem ?_ rest.braceless.opening
    rintro ⟨⟩
    cases unopened
  · rw [outline_code unquoted]
    refine List.not_mem_cons_of_ne_of_not_mem ?_ rest.braceless.closing
    rintro ⟨⟩
    cases unclosed
  · simp [slash]
  · simpa [Mode.next_code unquoted] using rest.uncommented

theorem of_calm {cs : List Char} (calm : ∀ c ∈ cs, isCalm c = true) : IsInline cs := by
  induction cs with
  | nil => exact nil
  | cons c cs ih => exact (ih fun d member => calm d (.tail _ member)).cons (calm c (.head _))

theorem append {as bs : List Char} (first : IsInline as) (second : IsInline bs)
    (begins : bs.head? ≠ some '/' ∧ bs.head? ≠ some '*') : IsInline (as ++ bs) where
  nested := first.nested.append second.nested
  braceless := first.braceless.append second.braceless
  uncommented := first.uncommented.append (by rw [first.braceless.run]; exact second.uncommented)
    begins

theorem string {quote : Char} {inside : List Char} (quotes : isQuote quote = true)
    (quotable : IsQuotable quote inside) : IsInline (quote :: (inside ++ [quote])) := by
  have tidy : Tidy (quote :: (inside ++ [quote])) := .string quotes quotable
  have gaps := outline_string quotes quotable []
  rw [List.cons_append] at gaps
  refine ⟨tidy.nested, ⟨tidy.nested.run, ?_, ?_⟩, tidy.uncommented⟩
  · rw [gaps]
    simp [outline]
  · rw [gaps]
    simp [outline]

/-- Text between two round or square brackets. -/
theorem group {opener closer : Char} {inside rest : List Char}
    (pair : closerOf? opener = some closer) (round : opener ≠ '{') (within : IsInline inside)
    (behind : IsInline rest) : IsInline (opener :: inside ++ closer :: rest) := by
  have opens := isQuote_of_isOpener (isOpener_of_pair pair)
  have closes := isQuote_of_isCloser (isCloser_of_pair pair).1
  have marks : opener ≠ '}' ∧ closer ≠ '{' ∧ closer ≠ '}' ∧ opener ≠ '/' ∧ closer ≠ '/' ∧
      closer ≠ '*' := by
    unfold closerOf? at pair
    split at pair <;> cases pair <;> simp_all
  obtain ⟨notClosing, notOpening, square, solid, noSlash, noStar⟩ := marks
  have outlined := outline_group pair within.nested rest
  refine ⟨.group pair within.nested behind.nested, ⟨?_, ?_, ?_⟩, ?_⟩
  · exact (IsNested.group pair within.nested behind.nested).run
  · rw [outlined]
    simp [Ne.symm round, Ne.symm notOpening, within.braceless.opening, behind.braceless.opening]
  · rw [outlined]
    simp [Ne.symm notClosing, Ne.symm square, within.braceless.closing, behind.braceless.closing]
  · have tail : Uncommented .code (closer :: rest) :=
      ⟨by simp [noSlash], by simpa [Mode.next_code closes] using behind.uncommented⟩
    refine ⟨by simp [solid], ?_⟩
    rw [Mode.next_code opens]
    exact within.uncommented.append (by rw [within.braceless.run]; exact tail) (by simp [noSlash, noStar])

end IsInline

/-- A line of a block without the blanks before it. -/
structure IsItem (cs : List Char) : Prop extends IsInline cs where
  unbroken : '\n' ∉ cs
  begins : ∀ c ∈ cs.head?, isWord c = true
  ends : EndsSolid cs

theorem isItem_of_isWordText {cs : List Char} (word : IsWordText cs) : IsItem cs where
  toIsInline := .of_calm fun c member => isCalm_of_isWord (word.2 c member)
  unbroken := word.not_mem (by decide)
  begins c first := word.2 c (List.mem_of_head? first)
  ends c last := isBlank_of_isWord (word.2 c (List.mem_of_getLast? last))

namespace IsItem

variable {cs : List Char}

theorem isTrimmed (item : IsItem cs) : IsTrimmed cs :=
  ⟨fun c first => isBlank_of_isWord (item.begins c first), item.ends⟩

theorem apart (item : IsItem cs) : cs.head? ≠ some '/' ∧ cs.head? ≠ some '*' := by
  constructor <;> intro first <;> cases item.begins _ first

end IsItem

/-- Text that can follow another: it is inline, and at its front is neither a slash nor a star. -/
theorem inline_flatMap {α : Type} {f : α → List Char} {items : List α}
    (each : ∀ item ∈ items, IsInline (f item) ∧
      (f item).head? ≠ some '/' ∧ (f item).head? ≠ some '*') :
    IsInline (items.flatMap f) ∧
      (items.flatMap f).head? ≠ some '/' ∧ (items.flatMap f).head? ≠ some '*' := by
  induction items with
  | nil => exact ⟨.nil, by simp, by simp⟩
  | cons item items ih =>
    obtain ⟨first, slash, star⟩ := each item (.head _)
    obtain ⟨later, noSlash, noStar⟩ := ih fun other member => each other (.tail _ member)
    rw [List.flatMap_cons]
    refine ⟨first.append later ⟨noSlash, noStar⟩, ?_⟩
    cases held : f item with
    | nil => simpa [held] using ⟨noSlash, noStar⟩
    | cons c cs => simpa [held] using And.intro slash star

namespace Attribute

variable {attr : Attribute}

theorem OnLine.inline_text (line : attr.OnLine) : IsInline attr.text := by
  have name : ∀ c ∈ attr.name.toList, isCalm c = true := fun c member =>
    isCalm_of_isNameChar (line.name c member)
  refine .cons (by decide) ?_
  cases held : attr.args with
  | none => exact .append (.of_calm name) .nil (by simp)
  | some args =>
    exact .append (.of_calm name) (.group rfl (by decide) (line.args args held).1 .nil) (by simp)

theorem OnLine.unbroken_text (line : attr.OnLine) : '\n' ∉ attr.text := by
  have name : '\n' ∉ attr.name.toList := fun member =>
    absurd (line.name _ member) (by decide)
  cases held : attr.args with
  | none => simp [text, held, name]
  | some args => simp [text, held, name, (line.args args held).2]

theorem WellFormed.sealed_text (formed : attr.WellFormed) :
    Sealed ['e', 'n', 'u', 'm'] attr.text := by
  have name : '{' ∉ '@' :: attr.name.toList := by
    simp only [List.mem_cons, not_or]
    exact ⟨by decide, fun member => absurd (formed.name _ member) (by decide)⟩
  rw [text, ← List.cons_append]
  refine .append (.of_braceless name) ?_
  cases held : attr.args with
  | none => exact .of_braceless (by simp)
  | some args => exact .parenthesized ⟨by simp, by decide⟩ (formed.args args held).headerless

theorem OnLine.endsSolid_text (line : attr.OnLine) : EndsSolid (' ' :: attr.text) := by
  intro c last
  cases held : attr.args with
  | none =>
    have some : attr.name.toList ≠ [] := by simpa using line.named
    have final : c ∈ attr.name.toList := by
      simp [text, held, List.getLast?_cons, List.getLast?_eq_getLast_of_ne_nil some] at last
      exact last ▸ List.getLast_mem some
    have inside := line.name c final
    simp only [Blocks.Attribute.isNameChar, Bool.or_eq_true, decide_eq_true_eq] at inside
    rcases inside with word | rfl
    · exact isBlank_of_isWord word
    · rfl
  | some args =>
    simp [text, held, List.getLast?_cons, List.getLast?_append] at last
    rw [← last]
    rfl

end Attribute

theorem Suffix.inline_text (suffix : Suffix) : IsInline suffix.text := by
  cases suffix with
  | none => exact .nil
  | optional => exact .cons (by decide) .nil
  | list => exact @IsInline.group '[' ']' [] [] rfl (by decide) .nil .nil

namespace Field

variable {field : Field}

theorem OnLine.isItem_text (line : field.OnLine) : IsItem field.text := by
  have name := isItem_of_isWordText line.name
  have type := isItem_of_isWordText line.type
  have attributes : IsInline field.attributesText ∧ field.attributesText.head? ≠ some '/' ∧
      field.attributesText.head? ≠ some '*' :=
    inline_flatMap fun attr member =>
      ⟨(line.attributes attr member).inline_text.cons (by decide), by simp, by simp⟩
  have unbroken : '\n' ∉ field.attributesText := by
    intro member
    obtain ⟨attr, inside, here⟩ := List.mem_flatMap.mp member
    simp only [List.mem_cons] at here
    rcases here with space | here
    · cases space
    · exact (line.attributes attr inside).unbroken_text here
  have suffixed : field.suffix.text.head? ≠ some '/' ∧ field.suffix.text.head? ≠ some '*' ∧
      '\n' ∉ field.suffix.text := by
    cases field.suffix <;> decide
  obtain ⟨slash, star, whole⟩ := suffixed
  refine ⟨?_, ?_, ?_, ?_⟩
  · refine name.toIsInline.append (.cons (by decide) ?_) (by simp)
    exact (type.toIsInline.append field.suffix.inline_text ⟨slash, star⟩).append attributes.1
      attributes.2
  · simp [text, name.unbroken, type.unbroken, whole, unbroken]
  · intro c first
    refine line.name.2 c ?_
    cases held : field.name.toList with
    | nil => exact absurd held line.name.1
    | cons d rest =>
      simp only [text, held, List.cons_append, List.head?_cons, Option.mem_some_iff] at first
      simp [first]
  · have suffix : EndsSolid field.suffix.text := by
      cases field.suffix <;> simp [EndsSolid, Suffix.text, isBlank]
    have typed : EndsSolid (' ' :: (field.type.toList ++ field.suffix.text)) := by
      have blank : EndsSolid (' ' :: field.type.toList) := by
        intro c last
        rw [List.getLast?_cons, List.getLast?_eq_getLast_of_ne_nil line.type.1] at last
        exact type.ends c (by simpa [List.getLast?_eq_getLast_of_ne_nil line.type.1] using last)
      exact blank.append suffix
    have whole := (name.ends.append typed).append
      (closed_flatMap (by simp [EndsSolid]) EndsSolid.append
        fun attr member => (line.attributes attr member).endsSolid_text)
    simpa [text, attributesText] using whole

theorem WellFormed.sealed_text (formed : field.WellFormed) :
    Sealed ['e', 'n', 'u', 'm'] field.text := by
  have word {text : List Char} (isWordText : IsWordText text) : '{' ∉ text :=
    isWordText.not_mem (by decide)
  have front : '{' ∉ field.name.toList ++ ' ' :: (field.type.toList ++ field.suffix.text) := by
    have suffix : '{' ∉ field.suffix.text := by cases field.suffix <;> decide
    simp [word formed.name, word formed.type, suffix]
  have attributes : Sealed ['e', 'n', 'u', 'm'] field.attributesText := by
    have space : Sealed ['e', 'n', 'u', 'm'] [' '] := .of_braceless (by decide)
    exact closed_flatMap (.of_braceless (by simp)) .append
      fun attr member => space.append (formed.attributes attr member).sealed_text
  simpa [text] using Sealed.append (.of_braceless front) attributes

end Field

theorem inline_bodyText {items : List (List Char)}
    (each : ∀ item ∈ items, IsInline item ∧ item.head? ≠ some '/' ∧ item.head? ≠ some '*')
    (indent : Nat) : IsInline (bodyText indent items) := by
  have gap : IsInline (List.replicate indent ' ') :=
    .of_calm fun c member => (List.eq_of_mem_replicate member) ▸ (by decide)
  refine .cons (by decide) (inline_flatMap fun item member => ?_).1
  obtain ⟨here, apart⟩ := each item member
  have line : IsInline (item ++ ['\n']) := here.append (.of_calm (by decide)) (by simp)
  have begins : (item ++ ['\n']).head? ≠ some '/' ∧ (item ++ ['\n']).head? ≠ some '*' := by
    cases item with
    | nil => simp
    | cons c cs => simpa using apart
  refine ⟨gap.append line begins, ?_⟩
  cases indent with
  | zero => simpa using begins
  | succ n => simp [List.replicate_succ]

theorem sealed_bodyText {keyword : List Char} {items : List (List Char)}
    (each : ∀ item ∈ items, Sealed keyword item) (indent : Nat) :
    Sealed keyword (bodyText indent items) := by
  have feed : Sealed keyword ['\n'] := .of_braceless (by decide)
  have gap : Sealed keyword (List.replicate indent ' ') := .of_braceless (by simp)
  exact feed.append (closed_flatMap (.of_braceless (by simp)) .append
    fun item member => gap.append ((each item member).append feed))

/-- One of the two words that blocks begin with. -/
def IsBlockKeyword (keyword : List Char) : Prop :=
  keyword = ['e', 'n', 'u', 'm'] ∨ keyword = ['m', 'o', 'd', 'e', 'l']

theorem IsBlockKeyword.isWordText {keyword : List Char} (known : IsBlockKeyword keyword) :
    IsWordText keyword := by
  rcases known with rfl | rfl <;> exact ⟨by simp, by decide⟩

namespace Block

variable {block : Block}

theorem isBlockKeyword (block : Block) : IsBlockKeyword block.keyword := by
  cases block with
  | enumeration enum => exact .inl rfl
  | model declared => exact .inr rfl

/-- Neither keyword ends with the other one. -/
theorem not_suffix_keyword {keyword : List Char} (known : IsBlockKeyword keyword)
    (other : keyword ≠ block.keyword) : ¬ keyword <:+ block.keyword := by
  have first : ¬ ['e', 'n', 'u', 'm'] <:+ ['m', 'o', 'd', 'e', 'l'] := by decide
  have second : ¬ ['m', 'o', 'd', 'e', 'l'] <:+ ['e', 'n', 'u', 'm'] := by decide
  rcases known with rfl | rfl
  · cases block with
    | enumeration enum => exact absurd rfl other
    | model declared => exact first
  · cases block with
    | enumeration enum => exact second
    | model declared => exact absurd rfl other

theorem WellFormed.isWordText_name (formed : block.WellFormed) : IsWordText block.name.toList := by
  cases block with
  | enumeration enum => exact formed.1
  | model declared => exact formed.name

theorem WellFormed.isItem (formed : block.WellFormed) : ∀ item ∈ block.lines, IsItem item := by
  intro item member
  cases block with
  | enumeration enum =>
    obtain ⟨value, inside, rfl⟩ := List.mem_map.mp member
    exact isItem_of_isWordText (formed.2 value inside)
  | model declared =>
    obtain ⟨field, inside, rfl⟩ := List.mem_map.mp member
    exact (formed.fields field inside).onLine.isItem_text

/-- No header of the other keyword stands in the body of a block. -/
theorem WellFormed.sealed_body (formed : block.WellFormed) {keyword : List Char}
    (known : IsBlockKeyword keyword) (other : keyword ≠ block.keyword) (indent : Nat) :
    Sealed keyword (bodyText indent block.lines) := by
  refine sealed_bodyText (fun item member => ?_) indent
  cases block with
  | enumeration enum =>
    obtain ⟨value, inside, rfl⟩ := List.mem_map.mp member
    exact .of_braceless fun brace => absurd ((formed.2 value inside).2 _ brace) (by decide)
  | model declared =>
    obtain ⟨field, inside, rfl⟩ := List.mem_map.mp member
    rcases known with rfl | rfl
    · exact (formed.fields field inside).sealed_text
    · exact absurd rfl other

end Block

end SchemaAtlas.Blocks.Written
