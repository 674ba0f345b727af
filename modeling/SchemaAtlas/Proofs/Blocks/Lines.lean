import SchemaAtlas.Blocks.Model
import SchemaAtlas.Proofs.Blocks.Attributes
import SchemaAtlas.Proofs.Blocks.Values
import SchemaAtlas.Proofs.Blocks.Written
import SchemaAtlas.Proofs.Journaled
import SchemaAtlas.Proofs.Text.Matches

/-!
The lines of a block read back: each attribute, field and value as it was written.
-/

set_option autoImplicit false

namespace SchemaAtlas.Blocks.Written

open Text

/-- A written field as it is read from a line. -/
def Field.read (line : Nat) (field : Field) : Blocks.Field where
  name := field.name
  type := field.type
  isArray := field.suffix = .list
  isOptional := field.suffix = .optional
  attributes := field.attributes.map Attribute.read
  line

theorem Attribute.OnLine.closed {attr : Attribute} (line : attr.OnLine) : attr.Closed where
  named := line.named
  name := line.name
  args args held := (line.args args held).1.nested

theorem Attribute.WellFormed.closed {attr : Attribute} (formed : attr.WellFormed) : attr.Closed :=
  formed.onLine.closed

namespace Field

variable {field : Field}

theorem WellFormed.listOf?_attributesText (formed : field.WellFormed) :
    Blocks.Attribute.listOf? field.attributesText = .ok (field.attributes.map Attribute.read) :=
  listOf?_spaced fun attr member => (formed.attributes attr member).closed

/-- The name and the type text of a field end where its line goes on with something else. -/
theorem parts?_front {name type marks rest : List Char} (named : IsWordText name)
    (typed : IsWordText type) (inside : ∀ c ∈ marks, Blocks.Field.isTypeChar c = true)
    (stops : ∀ c ∈ rest.head?, Blocks.Field.isTypeChar c = false) :
    Blocks.Field.parts? (name ++ ' ' :: (type ++ marks ++ rest)) = some (name, type ++ marks, rest) := by
  have word : takeWord? (name ++ ' ' :: (type ++ marks ++ rest)) =
      some (name, ' ' :: (type ++ marks ++ rest)) :=
    takeWord?_append named (by rintro _ ⟨⟩; decide)
  have blanks : dropBlanks? (' ' :: (type ++ marks ++ rest)) = some (type ++ marks ++ rest) := by
    rw [List.append_assoc]
    exact dropBlanks?_word typed _
  have run : takeRun? Blocks.Field.isTypeChar (type ++ marks ++ rest) =
      some (type ++ marks, rest) := by
    refine takeRun?_append (by simp [typed.1]) (fun c member => ?_) stops
    rcases List.mem_append.mp member with word | mark
    · simp [Blocks.Field.isTypeChar, typed.2 c word]
    · exact inside c mark
  simp only [Blocks.Field.parts?, word, blanks, run, Option.bind_eq_bind, Option.bind_some]
  rfl

theorem WellFormed.parts?_text (formed : field.WellFormed) :
    Blocks.Field.parts? field.text =
      some (field.name.toList, field.type.toList ++ field.suffix.text, field.attributesText) := by
  refine parts?_front formed.name formed.type ?_ ?_
  · cases field.suffix <;> decide
  · cases held : field.attributes with
    | nil => simp [attributesText, held]
    | cons attr attributes =>
      simp only [attributesText, held, List.flatMap_cons, List.cons_append]
      rintro _ ⟨⟩
      decide

/-- A type text ends with a mark only if the mark was put behind the type. -/
theorem WellFormed.endsWith_typeText (formed : field.WellFormed) (suffix : Suffix)
    (mark : suffix ≠ .none) :
    endsWith suffix.text (field.type.toList ++ field.suffix.text) =
      decide (field.suffix = suffix) := by
  rw [Bool.eq_iff_iff, endsWith_iff, decide_eq_true_eq]
  constructor
  · intro behind
    cases held : field.suffix with
    | none =>
      have last : ∃ c ∈ suffix.text, isWord c = false := by
        cases suffix with
        | none => exact absurd rfl mark
        | optional => exact ⟨'?', by decide⟩
        | list => exact ⟨']', by decide⟩
      obtain ⟨c, member, outside⟩ := last
      rw [held] at behind
      have word := formed.type.2 c (by simpa [Suffix.text] using behind.subset member)
      rw [outside] at word
      cases word
    | optional =>
      have front := List.reverse_prefix.mpr behind
      cases suffix <;> simp_all [Suffix.text]
    | list =>
      have front := List.reverse_prefix.mpr behind
      cases suffix <;> simp_all [Suffix.text]
  · rintro rfl
    exact List.suffix_append _ _

theorem WellFormed.baseType_typeText (formed : field.WellFormed) :
    Blocks.Field.baseType (field.type.toList ++ field.suffix.text) = field.type.toList := by
  have solid : field.type.toList.reverse.dropWhile (· = '?') = field.type.toList.reverse := by
    cases held : field.type.toList.reverse with
    | nil => rfl
    | cons c rest =>
      have word := formed.type.2 c (List.mem_reverse.mp (by simp [held]))
      have other : c ≠ '?' := by
        rintro rfl
        cases word
      simp [other]
  have bare : endsWith ['[', ']'] field.type.toList = false := by
    rw [Bool.eq_false_iff, ne_eq, endsWith_iff]
    intro behind
    cases formed.type.2 ']' (behind.subset (by simp))
  cases field.suffix with
  | none => simp [Blocks.Field.baseType, Suffix.text, solid, bare]
  | optional => simp [Blocks.Field.baseType, Suffix.text, solid, bare]
  | list =>
    have found : endsWith ['[', ']'] (field.type.toList ++ ['[', ']']) = true :=
      endsWith_iff.mpr (List.suffix_append _ _)
    simp [Blocks.Field.baseType, Suffix.text, found]

theorem WellFormed.ofLine?_text (formed : field.WellFormed) (line : Nat) :
    Blocks.Field.ofLine? line field.text = .ok (some (field.read line)) := by
  have brackets : endsWith ['[', ']'] _ = _ := formed.endsWith_typeText .list (by simp)
  have mark : endsWith ['?'] _ = _ := formed.endsWith_typeText .optional (by simp)
  rw [Blocks.Field.ofLine?, formed.parts?_text]
  simp only [formed.listOf?_attributesText, formed.baseType_typeText, brackets, mark]
  simp [read, bind, Except.bind, pure, Except.pure]

theorem WellFormed.trim_line (formed : field.WellFormed) (indent : Nat) :
    trim (List.replicate indent ' ' ++ field.text) = field.text := by
  rw [trim_append (isBlank_spaces indent), trim_eq_self formed.onLine.isItem_text.isTrimmed]

theorem not_marked {name : List Char} (named : IsWordText name) (rest : List Char) :
    (name ++ rest).isEmpty = false ∧ beginsWith ['@', '@'] (name ++ rest) = false := by
  refine ⟨by simp [named.1], ?_⟩
  rw [Bool.eq_false_iff, ne_eq, beginsWith_iff]
  rintro ⟨behind, same⟩
  have first : name.head? = some '@' := by
    rw [← List.head?_append_of_ne_nil _ named.1, ← same]
    rfl
  cases named.2 '@' (List.mem_of_head? first)

theorem WellFormed.not_marked (formed : field.WellFormed) :
    field.text.isEmpty = false ∧ beginsWith ['@', '@'] field.text = false :=
  Field.not_marked formed.name _

theorem WellFormed.itemOfLine?_text (formed : field.WellFormed) (indent line : Nat) :
    Model.Item.ofLine? line (List.replicate indent ' ' ++ field.text) =
      .ok (.field (field.read line)) := by
  rw [Model.Item.ofLine?]
  simp only [formed.trim_line, formed.not_marked, formed.ofLine?_text]
  rfl

end Field

theorem lines_bodyText {items : List (List Char)} (each : ∀ item ∈ items, '\n' ∉ item)
    (indent : Nat) :
    lines (bodyText indent items) =
      [] :: (items.map (List.replicate indent ' ' ++ ·) ++ [[]]) := by
  have gap : '\n' ∉ List.replicate indent ' ' := by simp
  have rest : lines (items.flatMap fun item => List.replicate indent ' ' ++ (item ++ ['\n'])) =
      items.map (List.replicate indent ' ' ++ ·) ++ [[]] := by
    induction items with
    | nil => rfl
    | cons item items ih =>
      have whole : '\n' ∉ List.replicate indent ' ' ++ item := by simp [gap, each item (.head _)]
      have split : (item :: items).flatMap (fun item => List.replicate indent ' ' ++ (item ++ ['\n'])) =
          (List.replicate indent ' ' ++ item) ++ '\n' ::
            items.flatMap fun item => List.replicate indent ' ' ++ (item ++ ['\n']) := by simp
      rw [split, lines_append whole, ih fun other member => each other (.tail _ member)]
      rfl
  rw [bodyText, ← List.nil_append ('\n' :: _), lines_append (by simp), rest]

/-- A model as it was written, read from some lines. -/
structure Model.Reads (written : Model) (model : Blocks.Model) : Prop where
  name : model.name = written.name
  fields : List.Forall₂ (fun field read => ∃ line, read = field.read line) written.fields
    model.fields
  attributes : model.attributes = []

theorem ofLines?_fields {fields : List Field} (formed : ∀ field ∈ fields, field.WellFormed)
    (name : String) (indent start line : Nat) :
    ∃ model, Blocks.Model.ofLines? name start line
        (fields.map (fun field => List.replicate indent ' ' ++ field.text) ++ [[]]) = .ok model ∧
      Model.Reads { name, fields } model := by
  induction fields generalizing line with
  | nil => exact ⟨{ name, line := start }, rfl, rfl, .nil, rfl⟩
  | cons field fields ih =>
    obtain ⟨model, later, reads⟩ := ih (fun other member => formed other (.tail _ member)) (line + 1)
    have here := (formed field (.head _)).itemOfLine?_text indent line
    refine ⟨{ model with fields := field.read line :: model.fields }, ?_, reads.name,
      .cons ⟨line, rfl⟩ reads.fields, reads.attributes⟩
    rw [List.map_cons, List.cons_append, Blocks.Model.ofLines?, here, later]
    rfl

/-- The body of a model read back. -/
theorem Model.WellFormed.ofBlock?_bodyText {model : Model} (formed : model.WellFormed)
    (indent : Nat) {block : Text.Block} (named : block.name = model.name)
    (body : block.body = bodyText indent (Block.lines (.model model))) :
    ∃ read, Blocks.Model.ofBlock? block = .ok read ∧ model.Reads read := by
  have whole : (Block.model model).WellFormed := formed
  have unbroken : ∀ item ∈ Block.lines (.model model), '\n' ∉ item := fun item member =>
    (whole.isItem item member).unbroken
  obtain ⟨read, found, reads⟩ := ofLines?_fields formed.fields model.name indent block.line
    (block.line + 1)
  refine ⟨read, ?_, reads⟩
  rw [Blocks.Model.ofBlock?, body, lines_bodyText unbroken, Blocks.Model.ofLines?, named]
  simp only [Block.lines, List.map_map, Function.comp_def, found]
  rfl

theorem not_mem_bodyText {c : Char} {items : List (List Char)} (each : ∀ item ∈ items, c ∉ item)
    (solid : isBlank c = false) (indent : Nat) : c ∉ bodyText indent items := by
  have space : c ≠ ' ' := by
    rintro rfl
    cases solid
  have feed : c ≠ '\n' := by
    rintro rfl
    cases solid
  simp only [bodyText, List.mem_cons, List.mem_flatMap, List.mem_append, List.mem_replicate,
    List.not_mem_nil, or_false, not_or, not_exists, not_and]
  exact ⟨feed, fun item member => ⟨fun _ => space, each item member, feed⟩⟩

theorem words_bodyText {items : List (List Char)} (each : ∀ item ∈ items, IsWordText item)
    (indent : Nat) : words (bodyText indent items) = items := by
  rw [bodyText, words_cons rfl]
  induction items with
  | nil => rfl
  | cons item items ih =>
    have here := each item (.head _)
    rw [List.flatMap_cons, List.append_assoc, words_gap (isBlank_spaces indent), List.append_assoc,
      List.singleton_append, words_append here.1 here.solid rfl,
      ih fun other member => each other (.tail _ member)]

/-- The body of an enumeration read back. -/
theorem enumValues_bodyText {values : List String}
    (words : ∀ value ∈ values, IsWordText value.toList) (indent : Nat) :
    enumValues (bodyText indent (values.map String.toList)) = values := by
  have each : ∀ item ∈ values.map String.toList, IsWordText item := by
    simpa using words
  have unmarked : '@' ∉ bodyText indent (values.map String.toList) :=
    not_mem_bodyText (fun item member => (each item member).not_mem (by decide)) (by decide) indent
  rw [enumValues_eq, unattributed_eq_self unmarked, words_bodyText each]
  simp

end SchemaAtlas.Blocks.Written
