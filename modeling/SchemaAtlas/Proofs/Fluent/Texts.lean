import SchemaAtlas.Proofs.Fluent.Written
import SchemaAtlas.Proofs.Text.Tidy

/-!
What the text of a written table is like: it is tidy, and its columns stand between commas.
-/

set_option autoImplicit false

namespace SchemaAtlas.Script

open Text

theorem IsName.tidy {name : String} (isName : IsName name) : Tidy name.toList := .word isName.word

theorem isTidy_of_isNamePart {c : Char} (part : isNamePart c = true) : isTidy c = true := by
  have outside : ∀ d ∈ ['/', '\'', '"', '\x60', '(', '[', '{', ')', ']', '}'], isNamePart d = false := by
    decide
  have apart : c ∉ ['/', '\'', '"', '\x60', '(', '[', '{', ')', ']', '}'] := fun member => by
    rw [outside c member] at part
    cases part
  simp only [List.mem_cons, List.not_mem_nil, or_false, not_or] at apart
  have unopened : closerOf? c = none := by
    unfold closerOf?
    split <;> simp_all
  simp [isTidy, isPlain, isQuote, isOpener, isCloser, unopened, apart]

theorem IsNumeral.tidy {cs : List Char} (numeral : IsNumeral cs) : Tidy cs := by
  refine .of_tidy fun c member => ?_
  rcases numeral.front.2 c member with digit | rfl
  · exact isTidy_of_isWord (isWord_of_isAlphanum (by simp [Char.isAlphanum, digit]))
  · rfl

end SchemaAtlas.Script

namespace SchemaAtlas.Fluent.Written

open Script Text

theorem IsInside.isQuote {quote : Char} {cs : List Char} (inside : IsInside quote cs) :
    isQuote quote = true := by
  rcases inside.quotes with rfl | rfl <;> decide

theorem IsInside.tidy {quote : Char} {cs : List Char} (inside : IsInside quote cs) :
    Tidy (quote :: (cs ++ [quote])) :=
  .string inside.isQuote (.of_plain inside.unquoted fun member => (inside.plain _ member).2.2 rfl)

theorem tidy_commaText {lead : List Char} {items : List (List Char)} (first : Tidy lead)
    (each : ∀ item ∈ items, Tidy item) : Tidy (commaText lead items) := by
  cases items with
  | nil => exact .nil
  | cons item items =>
    have comma : Tidy [',', ' '] := .of_tidy (by decide)
    exact first.append ((each item (.head _)).append
      (closed_flatMap .nil .append fun other member => comma.append (each other (.tail _ member))))

theorem not_mem_commaText {c : Char} (other : c ≠ ',' ∧ c ≠ ' ') {texts : List (List Char)}
    (each : ∀ text ∈ texts, c ∉ text) : c ∉ commaText [] texts := by
  cases texts with
  | nil => simp [commaText]
  | cons text texts =>
    simp only [commaText, List.nil_append, List.mem_append, List.mem_flatMap, List.mem_cons, not_or,
      not_exists, not_and]
    exact ⟨each text (.head _), fun text member => ⟨other.1, other.2, each text (.tail _ member)⟩⟩

theorem elementTexts_eq_map (elements : List Literal) :
    elementTexts elements = elements.map Literal.text := by
  induction elements with
  | nil => rfl
  | cons element elements ih => rw [elementTexts, ih, List.map_cons]

theorem entryTexts_eq_map (entries : List (String × Literal)) :
    entryTexts entries = entries.map fun (key, value) => key.toList ++ ':' :: ' ' :: value.text := by
  induction entries with
  | nil => rfl
  | cons entry entries ih => rw [entryTexts, ih, List.map_cons]

theorem tidy_elementTexts {elements : List Literal}
    (each : ∀ element ∈ elements, Tidy element.text) : ∀ text ∈ elementTexts elements, Tidy text := by
  rw [elementTexts_eq_map]
  intro text member
  obtain ⟨element, inside, rfl⟩ := List.mem_map.mp member
  exact each element inside

theorem tidy_entryTexts {entries : List (String × Literal)}
    (names : ∀ entry ∈ entries, IsName entry.1) (each : ∀ entry ∈ entries, Tidy entry.2.text) :
    ∀ text ∈ entryTexts entries, Tidy text := by
  rw [entryTexts_eq_map]
  intro text member
  obtain ⟨entry, inside, rfl⟩ := List.mem_map.mp member
  have colon : Tidy [':', ' '] := .of_tidy (by decide)
  exact (names entry inside).tidy.append (colon.append (each entry inside))

theorem Literal.WellFormed.tidy {literal : Literal} (formed : literal.WellFormed) :
    Tidy literal.text := by
  induction formed with
  | string inside => exact inside.tidy
  | number numeral => exact numeral.tidy
  | constant value => exact .word (by cases value <;> decide)
  | array _ ih => exact .group rfl (tidy_commaText .nil (tidy_elementTexts ih))
  | @object entries names _ ih =>
    have blank : Tidy [' '] := .of_tidy (by decide)
    have inside := (tidy_commaText blank (tidy_entryTexts names ih)).append blank
    simpa [Literal.text] using Tidy.group (by rfl : closerOf? '{' = some '}') inside

theorem Modifier.WellFormed.tidy {modifier : Modifier} (formed : modifier.WellFormed) :
    TidyItem ('.' :: modifier.text) := by
  have arguments : ∀ text ∈ modifier.argumentTexts, Tidy text := by
    cases formed with
    | flag kind each => exact tidy_elementTexts fun argument member => (each argument member).tidy
    | references table column each =>
      have brackets : Tidy ['(', ')'] := .group rfl .nil
      have arrow : Tidy [' ', '=', '>', ' '] := .of_tidy (by decide)
      have point : Tidy ['.'] := .of_tidy (by decide)
      have target := (brackets.append arrow).append
        (table.tidy.append (point.append column.tidy))
      simp only [argumentTexts, List.forall_mem_cons]
      exact ⟨by simpa using target, tidy_elementTexts fun option member => (each option member).tidy⟩
  have point : TidyItem ['.'] := .of_tidy (by decide) (by decide)
  exact point.append ((TidyItem.word modifier.isName_name.word).append
    (.group rfl (tidy_commaText .nil arguments)))

namespace Column.WellFormed

variable {column : Column}

theorem tidy (formed : column.WellFormed) : TidyItem column.text := by
  have colon : TidyItem [':', ' '] := .of_tidy (by decide) (by decide)
  have name : TidyItem ('(' :: (column.quote :: (column.name.toList ++ [column.quote]) ++ [')'])) :=
    .group rfl formed.name.tidy
  have modifiers : TidyItem (column.modifiers.flatMap fun modifier => '.' :: modifier.text) :=
    closed_flatMap .nil .append fun modifier member => (formed.modifiers modifier member).tidy
  have whole := (TidyItem.word formed.key.word).append (colon.append
    ((TidyItem.word formed.builder.word).append (name.append modifiers)))
  simpa [text, behind] using whole

theorem isTrimmed_text (formed : column.WellFormed) : IsTrimmed column.text := by
  constructor
  · intro c first
    rw [text, List.head?_append_of_ne_nil _ formed.key.word.1] at first
    exact isBlank_of_isWord (formed.key.word.2 c (List.mem_of_head? first))
  · have closes (cs : List Char) : EndsSolid (cs ++ [')']) := by
      intro c last
      rw [List.getLast?_concat] at last
      cases last
      rfl
    have modifiers : EndsSolid (column.modifiers.flatMap fun modifier => '.' :: modifier.text) :=
      closed_flatMap (by simp [EndsSolid]) EndsSolid.append fun modifier _ => by
        simpa [Modifier.text] using closes ('.' :: (modifier.name.toList ++ '(' ::
          commaText [] modifier.argumentTexts))
    have front := closes (column.key.toList ++ ':' :: ' ' :: (column.builder.toList ++ '(' ::
      column.quote :: (column.name.toList ++ [column.quote])))
    simpa [text, behind, EndsSolid] using front.append modifiers

end Column.WellFormed

namespace Table.WellFormed

variable {table : Table}

theorem tidy_columns (formed : table.WellFormed) :
    Tidy (commaText [' '] (table.columns.map Column.text) ++ [' ']) := by
  have blank : Tidy [' '] := .of_tidy (by decide)
  refine (tidy_commaText blank fun text member => ?_).append blank
  obtain ⟨column, inside, rfl⟩ := List.mem_map.mp member
  exact (formed.columns column inside).tidy.toTidy

theorem tidy (formed : table.WellFormed) : Tidy table.text := by
  have comma : Tidy [',', ' '] := .of_tidy (by decide)
  have front : Tidy "export const ".toList := .of_tidy (by decide)
  have callee : Tidy [' ', '=', ' ', 'p', 'g', 'T', 'a', 'b', 'l', 'e'] := .of_tidy (by decide)
  have columns := Tidy.group (by rfl : closerOf? '{' = some '}') formed.tidy_columns
  have inside := formed.name.tidy.append (comma.append columns)
  have call := callee.append (Tidy.group (by rfl : closerOf? '(' = some ')') inside)
  have whole := front.append (formed.id.tidy.append call)
  have parts : table.text = "export const ".toList ++ (table.id.toList ++
      ([' ', '=', ' ', 'p', 'g', 'T', 'a', 'b', 'l', 'e'] ++ ('(' ::
        (table.quote :: (table.name.toList ++ [table.quote]) ++ ([',', ' '] ++ '{' ::
          (commaText [' '] (table.columns.map Column.text) ++ [' '] ++ ['}'])) ++ [')'])))) := by
    unfold text
    simp [behind]
  rw [parts]
  exact whole

/-- The columns of a written table are split at the commas between them. -/
theorem splitCommas_columns (formed : table.WellFormed) :
    splitCommas (commaText [' '] (table.columns.map Column.text) ++ [' ']) =
      table.columns.map Column.text := by
  have each : ∀ item ∈ table.columns.map Column.text, IsArgument item := by
    intro item member
    obtain ⟨column, inside, rfl⟩ := List.mem_map.mp member
    have here := formed.columns column inside
    exact ⟨by simp [Column.text], here.isTrimmed_text, here.tidy.stays⟩
  cases held : table.columns.map Column.text with
  | nil => rfl
  | cons item items =>
    rw [held] at each
    have first := each item (.head _)
    have blank : Stays (fun c => decide (c = ',')) 0 [' '] := .plain (by decide) (by decide)
    have front : trim ([' '] ++ item) = item := by
      rw [trim_append (by decide), trim_eq_self first.trimmed]
    have last : ∀ c ∈ [' '], isBlank c = true := by decide
    have split := splitCommas_items (by rw [front]; exact first.held) (blank.append first.stays)
      (fun other member => each other (.tail _ member)) last
    rw [front] at split
    simpa [commaText] using split

end Table.WellFormed

end SchemaAtlas.Fluent.Written
