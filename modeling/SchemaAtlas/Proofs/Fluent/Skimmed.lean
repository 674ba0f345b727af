import SchemaAtlas.Proofs.Fluent.Openings
import SchemaAtlas.Proofs.Fluent.Texts

/-!
A written table read coarsely: the table of its name with a column for each entry, which only those
modifiers mark that have nothing but the target of a reference between their brackets. The strings
of the table must hold no opening bracket.
-/

set_option autoImplicit false

namespace SchemaAtlas.Fluent.Written

open Scan Script Text

/-- The literals between the brackets of a modifier. -/
def Modifier.literals : Modifier → List Literal
  | .flag _ arguments => arguments
  | .references _ options => options

/-- No string of a column holds an opening bracket. -/
structure Column.Unbracketed (column : Column) : Prop where
  name : '(' ∉ column.name.toList
  literals : ∀ modifier ∈ column.modifiers, ∀ literal ∈ modifier.literals, '(' ∉ literal.text

theorem not_mem_literalsText {literals : List Literal} (each : ∀ literal ∈ literals, '(' ∉ literal.text) :
    '(' ∉ commaText [] (elementTexts literals) := by
  refine not_mem_commaText (by decide) ?_
  rw [elementTexts_eq_map]
  simpa using each

/-- A literal begins with none of the marks around it. -/
theorem Literal.WellFormed.begins {literal : Literal} (formed : literal.WellFormed) :
    ∃ c rest, literal.text = c :: rest ∧ c ≠ ')' ∧ c ≠ ',' := by
  cases formed with
  | @string quote text inside =>
    refine ⟨quote, text.toList ++ [quote], rfl, ?_⟩
    rcases inside.quotes with rfl | rfl <;> decide
  | @number text numeral =>
    obtain ⟨c, more, same, digit⟩ := numeral.front.1
    have marks : ∀ d ∈ [')', ','], d.isDigit = false := by decide
    have apart (d : Char) (member : d ∈ [')', ',']) : c ≠ d := by
      rintro rfl
      rw [marks c member] at digit
      cases digit
    exact ⟨c, more, same, apart ')' (by simp), apart ',' (by simp)⟩
  | constant value =>
    cases value <;> exact ⟨_, _, rfl, by decide⟩
  | array => exact ⟨'[', _, rfl, by decide⟩
  | object => exact ⟨'{', _, rfl, by decide⟩

/-- What a coarse reading looks for as the mark of a flag. -/
def Flag.mark (flag : Flag) : List Char := flag.name.toList ++ ['(', ')']

namespace Modifier

variable {modifier : Modifier}

theorem text_references (target : ColumnReference) (options : List Literal) :
    (references target options).text = "references(".toList ++ '(' :: ')' :: ' ' :: '=' :: '>' :: ' ' ::
      (target.table.toList ++ '.' :: (target.column.toList ++
        ((elementTexts options).flatMap (fun option => ',' :: ' ' :: option) ++ [')']))) := by
  simp [text, name, argumentTexts, commaText]

theorem unopened_behind {target : ColumnReference} {options : List Literal}
    (table : IsName target.table) (column : IsName target.column)
    (unbracketed : ∀ literal ∈ (references target options).literals, '(' ∉ literal.text) :
    '(' ∉ target.table.toList ++ '.' :: (target.column.toList ++
      ((elementTexts options).flatMap (fun option => ',' :: ' ' :: option) ++ [')'])) := by
  have named {name : String} (isName : IsName name) : '(' ∉ name.toList :=
    isName.word.not_mem (by decide)
  have later : '(' ∉ (elementTexts options).flatMap fun option => ',' :: ' ' :: option := by
    rw [elementTexts_eq_map]
    simpa [literals] using unbracketed
  simp [named table, named column, later]

theorem mark_infix_iff (formed : modifier.WellFormed)
    (unbracketed : ∀ literal ∈ modifier.literals, '(' ∉ literal.text) (flag : Flag) :
    flag.mark <:+: modifier.text ↔ modifier.isBare = true ∧ modifier.flag? = some flag := by
  cases formed with
  | @flag kind arguments each =>
    have inside : '(' ∉ commaText [] (elementTexts arguments) := not_mem_literalsText unbracketed
    have unopened : '(' ∉ commaText [] (elementTexts arguments) ++ [')'] := by simp [inside]
    have named : '(' ∉ kind.name.toList := by cases kind <;> decide
    have same : flag.name.toList <:+ kind.name.toList ↔ kind = flag := by
      cases flag <;> cases kind <;> decide
    have bare : [')'] <+: commaText [] (elementTexts arguments) ++ [')'] ↔ arguments = [] := by
      cases arguments with
      | nil => simp [elementTexts, commaText]
      | cons argument arguments =>
        obtain ⟨c, rest, first, other, -⟩ := (each argument (.head _)).begins
        simp [elementTexts, commaText, first, Ne.symm other]
    have around := @infix_around flag.name.toList [')'] _ _ _ named unopened
    rw [Flag.mark, text]
    simp only [name, argumentTexts, isBare, flag?, List.isEmpty_iff, Option.some.injEq]
    rw [around, same, bare, and_comm]
  | @references target options table column each =>
    have unopened := unopened_behind table column unbracketed
    rw [text_references]
    generalize target.table.toList ++ '.' :: _ = behind at unopened
    have parts : "references(".toList = "reference".toList ++ ['s', '('] := by decide
    have absent : 's' ∉ flag.mark := by cases flag <;> decide
    have named : flag.name.toList ≠ [] := by cases flag <;> decide
    have front : flag.mark.head? ≠ some '(' := by cases flag <;> decide
    have early : ¬ flag.mark <:+: "reference".toList := by cases flag <;> decide
    have late : ¬ flag.mark <:+: '(' :: '(' :: ')' :: ' ' :: '=' :: '>' :: ' ' :: behind := by
      intro found
      rcases List.infix_cons_iff.mp found with ⟨rest, same⟩ | found
      · have first := congrArg List.head? same
        rw [List.head?_append_of_ne_nil _ (by simp [Flag.mark])] at first
        exact front first
      · have outside : '(' ∉ ')' :: ' ' :: '=' :: '>' :: ' ' :: behind := by simp [unopened]
        exact named (List.suffix_nil.mp ((infix_around (List.not_mem_nil) outside).mp found).1)
    have whole (rest : List Char) : "references(".toList ++ rest =
        "reference".toList ++ 's' :: '(' :: rest := by rw [parts]; simp
    rw [whole, infix_break absent]
    simp only [early, late, flag?, or_self, reduceCtorEq, and_false]

/-- What a coarse reading looks for as a reference. -/
def referenceMark : List Char := ".references(".toList

theorem referenceHere?_eq_none {cs : List Char} (unmarked : ¬ referenceMark <+: cs) :
    referenceHere? cs = none := by
  rw [Option.eq_none_iff_forall_ne_some]
  intro found read
  simp only [referenceHere?, Option.bind_eq_bind, Option.bind_eq_some_iff] at read
  obtain ⟨behind, marked, -⟩ := read
  exact unmarked ⟨behind, (eq_append_of_dropLiteral? marked).symm⟩

/-- No reference is found in a stretch up to a closing bracket that does not hold its mark. -/
theorem findMatch_unmarked {cs : List Char} (unmarked : ¬ referenceMark <:+: cs)
    (before : Option Char) (rest : List Char) :
    findMatch (fun _ => referenceHere?) before (cs ++ ')' :: rest) =
      findMatch (fun _ => referenceHere?) before rest := by
  have absent : ')' ∉ referenceMark := by decide
  have whole : cs ++ ')' :: rest = (cs ++ [')']) ++ rest := by simp
  rw [whole]
  refine findMatch_quiet before fun c tail suffix => referenceHere?_eq_none fun marked => ?_
  obtain empty | ⟨inside, same, within⟩ := List.suffix_concat_iff.mp suffix
  · cases empty
  · rw [same, List.append_assoc, List.singleton_append, ← beginsWith_iff, beginsWith,
      dropLiteral?_break rest absent, Option.isSome_map] at marked
    exact unmarked ((beginsWith_iff.mp marked).isInfix.trans within.isInfix)

/-- A reference counts if a closing bracket stands behind its target. -/
theorem referenceHere?_mark {target : ColumnReference} (table : IsName target.table)
    (column : IsName target.column) {rest : List Char} (stops : ∀ c ∈ rest.head?, isWord c = false) :
    referenceHere? (referenceMark ++ '(' :: ')' :: ' ' :: '=' :: '>' :: ' ' ::
        (target.table.toList ++ '.' :: (target.column.toList ++ rest))) =
      (dropMark? ')' rest).map fun _ => target := by
  have opening (cs : List Char) : dropMark? '(' ('(' :: cs) = some cs := rfl
  have closing (cs : List Char) : dropMark? ')' (')' :: cs) = some cs := rfl
  have arrow (cs : List Char) :
      dropLiteral? ['=', '>'] (trimLeft (' ' :: '=' :: '>' :: cs)) = some cs := rfl
  have point (cs : List Char) : dropLiteral? ['.'] ('.' :: cs) = some cs := rfl
  have gap (cs : List Char) : trimLeft (' ' :: (target.table.toList ++ cs)) =
      target.table.toList ++ cs := by
    have front := dropBlanks?_word table.word cs
    rw [dropBlanks?_cons rfl] at front
    exact Option.some.inj front
  have first := takeWord?_append table.word
    (by rintro _ ⟨⟩; decide : ∀ c ∈ ('.' :: (target.column.toList ++ rest)).head?, isWord c = false)
  have second := takeWord?_append column.word stops
  rw [referenceHere?]
  simp only [Option.bind_eq_bind, show ".references(".toList = referenceMark from rfl,
    dropLiteral?_append, Option.bind_some, opening, closing, arrow, gap, first, point, second,
    String.ofList_toList]
  cases dropMark? ')' rest <;> rfl

/-- The reference of a modifier is found if nothing stands behind its target. -/
theorem findMatch_modifier (formed : modifier.WellFormed)
    (unbracketed : ∀ literal ∈ modifier.literals, '(' ∉ literal.text) (before : Option Char)
    (rest : List Char) :
    findMatch (fun _ => referenceHere?) before ('.' :: (modifier.text ++ rest)) =
      if modifier.isBare = true then modifier.target?.or (findMatch (fun _ => referenceHere?) before rest)
      else findMatch (fun _ => referenceHere?) before rest := by
  have mark : referenceMark = ".references".toList ++ '(' :: [] := by decide
  cases formed with
  | @flag kind arguments each =>
    have inside : '(' ∉ commaText [] (elementTexts arguments) := not_mem_literalsText unbracketed
    have unmarked : ¬ referenceMark <:+:
        '.' :: kind.name.toList ++ '(' :: commaText [] (elementTexts arguments) := by
      have named : '(' ∉ '.' :: kind.name.toList := by cases kind <;> decide
      have other : ¬ ".references".toList <:+ '.' :: kind.name.toList := by cases kind <;> decide
      rw [mark, infix_around named inside]
      exact fun found => other found.1
    have skipped := findMatch_unmarked unmarked before rest
    simpa [text, name, argumentTexts, target?] using skipped
  | @references target options table column each =>
    rw [text_references]
    have split : referenceMark = '.' :: "references(".toList := by decide
    have stops (c : Char) (outside : isWord c = false) (cs : List Char) :
        ∀ d ∈ (c :: cs).head?, isWord d = false := by
      rintro _ ⟨⟩
      exact outside
    cases options with
    | nil =>
      have found := referenceHere?_mark table column (stops ')' (by decide) rest)
      rw [split, List.cons_append] at found
      simp only [elementTexts, List.flatMap_nil, List.nil_append, List.append_assoc,
        List.cons_append, isBare, List.isEmpty_nil, if_true, target?, Option.some_or] at found ⊢
      rw [findMatch, found]
      rfl
    | cons option options =>
      have unopened := unopened_behind table column unbracketed
      generalize others : (elementTexts (option :: options)).flatMap
        (fun option => ',' :: ' ' :: option) = more at unopened ⊢
      obtain ⟨tail, comma⟩ : ∃ tail, more = ',' :: tail := ⟨_, by rw [← others]; rfl⟩
      -- The reference itself is not found, and no other one up to the end of its brackets.
      have missed := referenceHere?_mark table column
        (stops ',' (by decide) (tail ++ ')' :: rest))
      have unmarked : ¬ referenceMark <:+: ("references((".toList ++ ')' :: ' ' :: '=' :: '>' :: ' ' ::
          (target.table.toList ++ '.' :: (target.column.toList ++ more))) := by
        have front : ¬ referenceMark <:+: "references((".toList := by decide
        have absent : ')' ∉ referenceMark := by decide
        rw [infix_break absent]
        rintro (early | late)
        · exact front early
        · have member := late.subset (by decide : '(' ∈ referenceMark)
          simp only [List.mem_append, List.mem_cons, List.not_mem_nil, or_false, not_or,
            Char.reduceEq, false_or] at member unopened
          exact member.elim unopened.1 fun inside => inside.elim unopened.2.1 unopened.2.2
      have skipped := findMatch_unmarked unmarked (some '.') rest
      have parts : "references((".toList = "references(".toList ++ ['('] := by decide
      rw [parts] at skipped
      rw [split] at missed
      rw [comma] at skipped
      have unfound (cs : List Char) : dropMark? ')' (',' :: cs) = none := rfl
      simp only [comma, List.append_assoc, List.cons_append, List.nil_append, unfound, Option.map_none,
        isBare, List.isEmpty_cons, Bool.false_eq_true, if_false] at missed skipped ⊢
      rw [findMatch]
      simp only [missed, skipped]
      exact findMatch_before _ _ _

end Modifier

theorem not_mem_flag_mark {c : Char} (outside : c = '.' ∨ c = ',') (flag : Flag) : c ∉ flag.mark := by
  rcases outside with rfl | rfl <;> cases flag <;> decide

/-- The mark of a flag stands in a chain of modifiers if it stands in one of them. -/
theorem mark_infix_flatMap (flag : Flag) (modifiers : List Modifier) (front : List Char) :
    flag.mark <:+: front ++ modifiers.flatMap (fun modifier => '.' :: modifier.text) ↔
      flag.mark <:+: front ∨ ∃ modifier ∈ modifiers, flag.mark <:+: modifier.text := by
  -- What stands in front is general: each modifier is taken up between two points.
  induction modifiers generalizing front with
  | nil => simp
  | cons modifier modifiers ih =>
    rw [List.flatMap_cons, List.cons_append, infix_break (not_mem_flag_mark (.inl rfl) flag), ih]
    simp

namespace Column

variable {column : Column}

/-- The text of a column behind its builder, cut behind the name. -/
theorem behind_eq (column : Column) : column.behind =
    (column.quote :: (column.name.toList ++ [column.quote])) ++ ')' ::
      column.modifiers.flatMap fun modifier => '.' :: modifier.text := by
  simp [behind]

theorem unopened_name (formed : column.WellFormed) (unbracketed : column.Unbracketed) :
    '(' ∉ column.quote :: (column.name.toList ++ [column.quote]) := by
  have outside : '(' ≠ column.quote := by
    rcases formed.name.quotes with same | same <;> rw [same] <;> decide
  simp [outside, unbracketed.name]

theorem mark_infix_behind (formed : column.WellFormed) (unbracketed : column.Unbracketed)
    (flag : Flag) : flag.mark <:+: column.behind ↔ column.marks Modifier.isBare flag = true := by
  have absent : ¬ flag.mark <:+:
      (column.quote :: (column.name.toList ++ [column.quote])) ++ [')'] := fun found => by
    have member : '(' ∈ flag.mark := by cases flag <;> decide
    have inside := found.subset member
    rw [List.mem_append] at inside
    exact inside.elim (unopened_name formed unbracketed) (by decide)
  have whole := mark_infix_flatMap flag column.modifiers
    ((column.quote :: (column.name.toList ++ [column.quote])) ++ [')'])
  rw [behind_eq, show ∀ cs ds : List Char, cs ++ ')' :: ds = (cs ++ [')']) ++ ds by simp, whole]
  simp only [absent, false_or, marks, List.any_filter, List.any_eq_true, Bool.and_eq_true,
    decide_eq_true_eq]
  refine exists_congr fun modifier => and_congr_right fun member => ?_
  exact Modifier.mark_infix_iff (formed.modifiers modifier member)
    (unbracketed.literals modifier member) flag

theorem findMatch_behind (formed : column.WellFormed) (unbracketed : column.Unbracketed) :
    findMatch (fun _ => referenceHere?) none column.behind = column.reference? Modifier.isBare := by
  have unmarked : ¬ Modifier.referenceMark <:+: column.quote :: (column.name.toList ++ [column.quote]) :=
    fun found => unopened_name formed unbracketed (found.subset (by decide))
  rw [behind_eq, Modifier.findMatch_unmarked unmarked, reference?]
  have each := formed.modifiers
  have plain := unbracketed.literals
  generalize column.modifiers = modifiers at each plain ⊢
  induction modifiers with
  | nil => rfl
  | cons modifier modifiers ih =>
    have later := ih (fun other member => each other (.tail _ member))
      fun other member => plain other (.tail _ member)
    rw [List.flatMap_cons, List.cons_append,
      Modifier.findMatch_modifier (each modifier (.head _)) (plain modifier (.head _)), later]
    by_cases bare : modifier.isBare = true
    · rw [if_pos bare, List.filter_cons_of_pos bare, List.findSome?_cons]
      cases modifier.target? <;> rfl
    · rw [if_neg bare, List.filter_cons_of_neg bare]

/-- Only bare modifiers of a column count when it is read coarsely. -/
theorem WellFormed.scanColumn?_text (formed : column.WellFormed) (unbracketed : column.Unbracketed) :
    ∃ built, Scan.column? TypeMap.drizzle.provider column.text = .ok (some built) ∧
      column.IsColumn Modifier.isBare built := by
  obtain ⟨built, found, described⟩ := formed.ofFields? Modifier.isBare
  have solid : ∀ c ∈ (column.builder.toList ++ '(' :: column.behind).head?, isBlank c = false := by
    intro c first
    rw [List.head?_append_of_ne_nil _ formed.builder.word.1] at first
    exact isBlank_of_isWord (formed.builder.word.2 c (List.mem_of_mem_head? first))
  have key : takeWord? column.text =
      some (column.key.toList, ':' :: ' ' :: (column.builder.toList ++ '(' :: column.behind)) :=
    takeWord?_append formed.key.word (by rintro _ ⟨⟩; decide)
  have colon : dropMark? ':' (':' :: ' ' :: (column.builder.toList ++ '(' :: column.behind)) =
      some (' ' :: (column.builder.toList ++ '(' :: column.behind)) := rfl
  have gap : trimLeft (' ' :: (column.builder.toList ++ '(' :: column.behind)) =
      column.builder.toList ++ '(' :: column.behind := by
    rw [show ∀ cs : List Char, ' ' :: cs = [' '] ++ cs from fun _ => rfl,
      trimLeft_append (by decide), trimLeft_eq_self solid]
  have builder : takeWord? (column.builder.toList ++ '(' :: column.behind) =
      some (column.builder.toList, '(' :: column.behind) :=
    takeWord?_append formed.builder.word (by rintro _ ⟨⟩; decide)
  have bracket : dropMark? '(' ('(' :: column.behind) = some column.behind := rfl
  have flags (flag : Flag) : contains flag.mark column.behind = column.marks Modifier.isBare flag := by
    rw [Bool.eq_iff_iff, contains_iff, mark_infix_behind formed unbracketed]
  have primary : contains "primaryKey()".toList column.behind = _ := flags .primaryKey
  have unique : contains "unique()".toList column.behind = _ := flags .unique
  have notNull : contains "notNull()".toList column.behind = _ := flags .notNull
  have typed : TypeMap.drizzle.provider.resolve column.builder =
      .ok (TypeMap.drizzle.resolve column.builder) := rfl
  have type : ((TypeMap.drizzle.resolve column.builder).filter (· ≠ "")).getD column.builder =
      column.type := rfl
  refine ⟨built, ?_, described⟩
  rw [Scan.column?]
  simp only [key, Option.bind_some, colon, gap, builder, bracket,
    Option.pure_def, String.ofList_toList, primary, unique, notNull, typed,
    findMatch_behind formed unbracketed, bind, Except.bind]
  rw [type, found]
  rfl

end Column

/-- The name of a table can be told from its quotes, and no string of it holds an opening bracket. -/
structure Table.Unbracketed (table : Table) : Prop where
  some : table.name.toList ≠ []
  name : ∀ c ∈ table.name.toList, isQuote c = false ∧ c ≠ '('
  columns : ∀ column ∈ table.columns, column.Unbracketed

namespace Modifier

theorem WellFormed.detached {modifier : Modifier} (formed : modifier.WellFormed)
    (unbracketed : ∀ literal ∈ modifier.literals, '(' ∉ literal.text) :
    Detached ('.' :: modifier.text) := by
  refine .cons (by decide) ?_
  cases formed with
  | @flag kind arguments each =>
    have unassigned : '=' ∉ kind.name.toList ++ ['('] := by cases kind <;> decide
    have inside : '(' ∉ commaText [] (elementTexts arguments) := not_mem_literalsText unbracketed
    have unopened : '(' ∉ commaText [] (elementTexts arguments) ++ [')'] := by simp [inside]
    simpa [text, name, argumentTexts] using Uncalled.cut unassigned unopened
  | @references target options table column each =>
    have behind := unopened_behind table column unbracketed
    rw [text_references]
    generalize target.table.toList ++ '.' :: _ = more at behind
    have unopened : '(' ∉ ')' :: ' ' :: '=' :: '>' :: ' ' :: more := by simp [behind]
    simpa using Uncalled.cut (by decide : '=' ∉ "references(".toList ++ ['(']) unopened

end Modifier

theorem Column.WellFormed.uncalled {column : Column} (formed : column.WellFormed)
    (unbracketed : column.Unbracketed) : Uncalled column.text := by
  have plain {cs : List Char} (word : IsWordText cs) : '=' ∉ cs := word.not_mem (by decide)
  have unassigned : '=' ∉ column.key.toList ++ ':' :: ' ' :: (column.builder.toList ++ ['(']) := by
    simp [plain formed.key.word, plain formed.builder.word]
  have unopened : '(' ∉ column.quote :: (column.name.toList ++ [column.quote]) ++ [')'] := by
    rw [List.mem_append, not_or]
    exact ⟨unopened_name formed unbracketed, by decide⟩
  have modifiers : Detached (column.modifiers.flatMap fun modifier => '.' :: modifier.text) :=
    closed_flatMap .nil .append fun modifier member =>
      (formed.modifiers modifier member).detached (unbracketed.literals modifier member)
  have whole := (Uncalled.cut unassigned unopened).append modifiers.uncalled modifiers.parts
  simpa [text, behind] using whole

namespace Table.WellFormed

variable {table : Table}

/-- No further declaration stands in the arguments of a table. -/
theorem uncalled_behind (formed : table.WellFormed) (unbracketed : table.Unbracketed) :
    Uncalled table.behind := by
  have quoted : '(' ∉ table.quote :: (table.name.toList ++ [table.quote]) := by
    have outside : '(' ≠ table.quote := by
      rcases formed.name.quotes with same | same <;> rw [same] <;> decide
    have inside : '(' ∉ table.name.toList := fun member => (unbracketed.name _ member).2 rfl
    simp [outside, inside]
  have columns : Uncalled (commaText [' '] (table.columns.map Column.text)) := by
    have each : ∀ text ∈ table.columns.map Column.text, Uncalled text := by
      intro text member
      obtain ⟨column, inside, rfl⟩ := List.mem_map.mp member
      exact (formed.columns column inside).uncalled (unbracketed.columns column inside)
    cases held : table.columns.map Column.text with
    | nil => exact .of_unopened (by simp [commaText])
    | cons text texts =>
      rw [held] at each
      have later : Detached (texts.flatMap fun text => ',' :: ' ' :: text) :=
        closed_flatMap .nil .append fun other member =>
          .cons (by decide) ((each other (.tail _ member)).cons (by decide))
      exact ((each text (.head _)).append later.uncalled later.parts).cons (by decide)
  have braces : Detached (',' :: ' ' :: '{' ::
      (commaText [' '] (table.columns.map Column.text) ++ [' ', '}', ')'])) := by
    refine .cons (by decide) (.cons (by decide) (.cons (by decide) ?_))
    exact columns.append_unopened (by decide)
  have whole := (Uncalled.of_unopened quoted).append braces.uncalled braces.parts
  simpa [behind] using whole

theorem tableHead?_behind (formed : table.WellFormed) (unbracketed : table.Unbracketed) :
    tableHead? table.behind = some (table.name.toList,
      commaText [' '] (table.columns.map Column.text) ++ [' ', '}', ')']) := by
  have quotes : ∀ c, c ∈ ['\'', '"', '\x60'] ↔ isQuote c = true := by
    simp [isQuote, or_assoc]
  have marked := (quotes table.quote).mpr formed.name.isQuote
  have solid : isBlank table.quote = false := by
    rcases formed.name.quotes with same | same <;> rw [same] <;> decide
  have name := quotedText?_quoted marked marked solid unbracketed.some
    fun c member => by simp [quotes, (unbracketed.name c member).1]
  have comma (more : List Char) : dropMark? ',' (',' :: more) = some more := rfl
  have brace (more : List Char) : dropMark? '{' (' ' :: '{' :: more) = some more := rfl
  rw [tableHead?, behind]
  simp only [name, Option.bind_eq_bind, Option.bind_some, comma, brace, Option.pure_def]

end Table.WellFormed

end SchemaAtlas.Fluent.Written
