import Mathlib.Data.List.Infix
import Mathlib.Data.Option.Basic
import SchemaAtlas.Proofs.Text.Nesting
import SchemaAtlas.Proofs.Text.Runs
import SchemaAtlas.Text.Block

/-!
Where the header of a block can stand. Nothing but word characters and blanks stands between the
keyword and the brace of a header, so that any other character keeps what is before it apart from
what is behind it.
-/

set_option autoImplicit false

namespace SchemaAtlas.Text

/-- Whether a character has no place in a block header. -/
def breaksHeader (c : Char) : Bool := !isWord c && !isBlank c && c ≠ '{'

section Breaking

variable {c : Char} (rest : List Char)

theorem dropLiteral?_break {literal : List Char} (absent : c ∉ literal) (cs : List Char) :
    dropLiteral? literal (cs ++ c :: rest) = (dropLiteral? literal cs).map (· ++ c :: rest) := by
  induction literal generalizing cs with
  | nil => simp [dropLiteral?]
  | cons x literal ih =>
    have later := ih fun member => absent (.tail _ member)
    cases cs with
    | nil =>
      have other : x ≠ c := fun same => absent (same ▸ .head _)
      simp [dropLiteral?, other]
    | cons d cs =>
      simp only [List.cons_append, dropLiteral?]
      split
      next => exact later cs
      next => rfl

theorem trimLeft_break (solid : isBlank c = false) (cs : List Char) :
    trimLeft (cs ++ c :: rest) = trimLeft cs ++ c :: rest := by
  rw [trimLeft, List.dropWhile_append]
  split
  next empty => simpa [trimLeft, solid] using empty
  next => rfl

theorem dropBlanks?_break (solid : isBlank c = false) (cs : List Char) :
    dropBlanks? (cs ++ c :: rest) = (dropBlanks? cs).map (· ++ c :: rest) := by
  cases cs with
  | nil => simp [dropBlanks?, solid]
  | cons d cs =>
    rw [List.cons_append, dropBlanks?, dropBlanks?, trimLeft_break rest solid]
    split <;> rfl

theorem takeRun?_break {members : Char → Bool} (outside : members c = false) (cs : List Char) :
    takeRun? members (cs ++ c :: rest) =
      (takeRun? members cs).map fun found => (found.1, found.2 ++ c :: rest) := by
  have parts : (cs ++ c :: rest).span members =
      ((cs.span members).1, (cs.span members).2 ++ c :: rest) := by
    induction cs with
    | nil => simp [outside]
    | cons d cs ih =>
      rw [List.span_eq_takeWhile_dropWhile, List.span_eq_takeWhile_dropWhile] at ih ⊢
      obtain ⟨first, second⟩ := Prod.mk.inj ih
      by_cases inside : members d = true <;> simp [inside, first, second]
  rw [takeRun?, takeRun?, parts]
  cases cs.span members with
  | mk run behind => cases run <;> rfl

/-- A header is not found across a character that has no place in it. -/
theorem blockHeader?_break {keyword : List Char} (word : IsWordText keyword)
    (breaks : breaksHeader c = true) (before : Option Char) (cs : List Char) :
    blockHeader? keyword before (cs ++ c :: rest) =
      (blockHeader? keyword before cs).map fun found => (found.1, found.2 ++ c :: rest) := by
  simp only [breaksHeader, Bool.and_eq_true, Bool.not_eq_true', decide_eq_true_eq] at breaks
  obtain ⟨⟨outside, solid⟩, brace⟩ := breaks
  have absent : c ∉ keyword := fun member => by simp [word.2 c member] at outside
  have noBrace : c ∉ ['{'] := by simpa using brace
  unfold blockHeader?
  simp only [Option.bind_eq_bind, dropLiteral?_break rest absent, takeWord?,
    Option.bind_map, Function.comp_def, dropBlanks?_break rest solid, takeRun?_break rest outside,
    trimLeft_break rest solid, dropLiteral?_break rest noBrace, Option.map_bind]
  rfl

end Breaking

/-- The parts of a header: the keyword, blanks, the name, and a brace that only blanks stand in
front of. -/
theorem parts_of_blockHeader? {keyword cs : List Char} {before : Option Char}
    {found : List Char × List Char} (header : blockHeader? keyword before cs = some found) :
    ∃ gap space, gap ≠ [] ∧ (∀ c ∈ gap, isBlank c = true) ∧ IsWordText found.1 ∧
      (∀ c ∈ space, isBlank c = true) ∧
      cs = keyword ++ (gap ++ (found.1 ++ (space ++ '{' :: found.2))) := by
  simp only [blockHeader?, Option.bind_eq_bind, Option.bind_eq_some_iff] at header
  obtain ⟨-, -, behind, literal, named, blanks, ⟨name, rest⟩, taken, last, brace, same⟩ := header
  cases same
  obtain ⟨gap, held, blank, first⟩ := eq_append_of_dropBlanks? blanks
  obtain ⟨split, inside⟩ := eq_append_of_takeRun? taken
  obtain ⟨space, spaced, blank'⟩ := exists_trimLeft rest
  refine ⟨gap, space, held, blank, ⟨ne_nil_of_takeRun? taken, inside⟩, blank', ?_⟩
  rw [eq_append_of_dropLiteral? literal, first, split, spaced, eq_append_of_dropLiteral? brace]
  rfl

/-- A header has a brace, and a blank stands right behind its keyword. -/
theorem blockHeader?_shape {keyword cs : List Char} {before : Option Char}
    {found : List Char × List Char} (header : blockHeader? keyword before cs = some found) :
    ∃ c rest, cs = keyword ++ c :: rest ∧ isBlank c = true ∧ '{' ∈ cs := by
  obtain ⟨gap, space, held, blank, -, -, rfl⟩ := parts_of_blockHeader? header
  cases gap with
  | nil => exact absurd rfl held
  | cons c gap => exact ⟨c, _, rfl, blank c (.head _), by simp⟩

/-- Behind a header stands the text behind its brace. -/
theorem suffix_of_blockHeader? {keyword cs : List Char} {before : Option Char}
    {found : List Char × List Char} (header : blockHeader? keyword before cs = some found) :
    '{' :: found.2 <:+ cs := by
  obtain ⟨gap, space, -, -, -, -, rfl⟩ := parts_of_blockHeader? header
  exact ⟨keyword ++ (gap ++ (found.1 ++ space)), by simp⟩

theorem blockHeader?_outside {keyword : List Char} (word : IsWordText keyword) {c : Char}
    (outside : isWord c = false) (before : Option Char) (rest : List Char) :
    blockHeader? keyword before (c :: rest) = none := by
  rw [Option.eq_none_iff_forall_ne_some]
  intro found header
  obtain ⟨d, tail, same, -, -⟩ := blockHeader?_shape header
  obtain ⟨some, inside⟩ := word
  cases keyword with
  | nil => exact some rfl
  | cons k keyword =>
    have first : c = k := (List.cons.inj same).1
    simp [first, inside k (.head _)] at outside

/-- Without anything before it a header is found wherever it is found at all. -/
theorem blockHeader?_eq_none {keyword cs : List Char} (before : Option Char)
    (nowhere : blockHeader? keyword none cs = none) : blockHeader? keyword before cs = none := by
  rw [Option.eq_none_iff_forall_ne_some] at nowhere ⊢
  intro found header
  refine nowhere found ?_
  simp only [blockHeader?, Option.bind_eq_bind, Option.bind_eq_some_iff] at header ⊢
  obtain ⟨-, -, later⟩ := header
  exact ⟨(), rfl, later⟩

/-- A character, or none, in front of which a header may stand. -/
def IsFree (before : Option Char) : Prop :=
  ∀ c ∈ before, isWord c = false ∧ c ≠ '.' ∧ c ≠ '@'

theorem isFree_none : IsFree none := by
  simp [IsFree]

theorem isFree_of_isBlank {c : Char} (blank : isBlank c = true) : IsFree (some c) := by
  rintro _ ⟨⟩
  have solid : isWord c = false := by
    by_contra word
    rw [Bool.not_eq_false] at word
    rw [isBlank_of_isWord word] at blank
    cases blank
  refine ⟨solid, ?_, ?_⟩ <;> rintro rfl <;> cases blank

theorem isFree_brace {c : Char} (brace : c = '{' ∨ c = '}') : IsFree (some c) := by
  rintro _ ⟨⟩
  rcases brace with rfl | rfl <;> decide

theorem any_of_isFree {before : Option Char} (free : IsFree before) : before.any isWord = false := by
  cases before with
  | none => rfl
  | some c => exact (free c rfl).1

theorem isFree_of_blockHeader? {keyword : List Char} {before : Option Char} {cs : List Char}
    {found : List Char × List Char} (header : blockHeader? keyword before cs = some found) :
    IsFree before := by
  simp only [blockHeader?, Option.bind_eq_bind, Option.bind_eq_some_iff] at header
  obtain ⟨_, free, -⟩ := header
  intro c member
  rw [Option.mem_def] at member
  subst member
  by_contra other
  -- The guard in front of a header is the one that a free place is defined by.
  have held : (some c).any (fun c => isWord c || c = '.' || c = '@') = true := by
    simp only [Option.any_some, Bool.or_eq_true, decide_eq_true_eq]
    by_cases inside : isWord c = true
    · simp [inside]
    · by_cases dot : c = '.' <;> by_cases mark : c = '@' <;> simp_all
  simp [held, failure] at free

theorem blockHeader?_free {keyword : List Char} {before : Option Char} (free : IsFree before)
    (cs : List Char) : blockHeader? keyword before cs = blockHeader? keyword none cs := by
  cases before with
  | none => rfl
  | some c =>
    obtain ⟨outside, dot, mark⟩ := free c rfl
    simp [blockHeader?, outside, dot, mark]

/-- A word that a header begins with is the keyword as a whole. -/
theorem run_of_blockHeader? {keyword run rest : List Char} {before : Option Char}
    {found : List Char × List Char} (word : IsWordText keyword)
    (inside : ∀ c ∈ run, isWord c = true) (stops : ∀ c ∈ rest.head?, isWord c = false)
    (header : blockHeader? keyword before (run ++ rest) = some found) : run = keyword := by
  obtain ⟨d, tail, whole, blank, -⟩ := blockHeader?_shape header
  have solid : ∀ c ∈ (d :: tail).head?, isWord c = false := by
    rintro _ ⟨⟩
    by_contra inside
    rw [Bool.not_eq_false] at inside
    simp [isBlank_of_isWord inside] at blank
  -- Both sides begin with the same longest run of word characters.
  have runs := congrArg (List.span isWord) whole
  rw [span_append inside stops, span_append word.2 solid] at runs
  exact (Prod.mk.inj runs).1

/-- A brace instead of a name stands behind what could be the keyword. -/
theorem blockHeader?_nameless (keyword : List Char) {gap : List Char}
    (blank : ∀ c ∈ gap, isBlank c = true) (before : Option Char) (rest : List Char) :
    blockHeader? keyword before (keyword ++ (gap ++ '{' :: rest)) = none := by
  have solid : ∀ c ∈ ('{' :: rest).head?, isBlank c = false := by
    rintro _ ⟨⟩
    decide
  have noName : (dropBlanks? (gap ++ '{' :: rest)).bind takeWord? = none := by
    by_cases held : gap = []
    · rw [held, List.nil_append, dropBlanks?_eq_none solid, Option.bind_none]
    · rw [dropBlanks?_gap held blank solid, Option.bind_some, takeWord?, takeRun?_eq_none]
      rintro _ ⟨⟩
      decide
  cases blanks : dropBlanks? (gap ++ '{' :: rest) with
  | none => simp [blockHeader?, blanks]
  | some named =>
    rw [blanks, Option.bind_some] at noName
    simp [blockHeader?, blanks, noName]

/-- A header at the front of a text. -/
theorem blockHeader?_header (keyword : List Char) {gap name space : List Char} (held : gap ≠ [])
    (blank : ∀ c ∈ gap, isBlank c = true) (named : IsWordText name)
    (spaced : ∀ c ∈ space, isBlank c = true) {before : Option Char} (free : IsFree before)
    (rest : List Char) :
    blockHeader? keyword before (keyword ++ (gap ++ (name ++ (space ++ '{' :: rest)))) =
      some (name, rest) := by
  have brace : trimLeft (space ++ '{' :: rest) = '{' :: rest := by
    rw [trimLeft_append spaced, trimLeft_eq_self]
    rintro _ ⟨⟩
    decide
  have stops : ∀ c ∈ (space ++ '{' :: rest).head?, isWord c = false := by
    cases space with
    | nil =>
      rintro _ ⟨⟩
      decide
    | cons c space =>
      rintro _ ⟨⟩
      exact (isFree_of_isBlank (spaced c (.head _)) c rfl).1
  have front := dropBlanks?_gap held blank (isBlank_head?_word named (space ++ '{' :: rest))
  rw [blockHeader?_free free]
  simp [blockHeader?, front, takeWord?_append named stops, brace, dropLiteral?]

/-- A text nowhere in which a header of a keyword begins. -/
def Headerless (keyword cs : List Char) : Prop :=
  ∀ rest, rest <:+ cs → blockHeader? keyword none rest = none

namespace Headerless

variable {keyword : List Char}

theorem of_braceless {cs : List Char} (absent : '{' ∉ cs) : Headerless keyword cs := by
  intro rest behind
  rw [Option.eq_none_iff_forall_ne_some]
  intro found header
  obtain ⟨-, -, -, -, brace⟩ := blockHeader?_shape header
  exact absent (behind.subset brace)

theorem nil : Headerless keyword [] := of_braceless (by simp)

theorem append {cs rest : List Char} (word : IsWordText keyword) (first : Headerless keyword cs)
    {c : Char} (breaks : breaksHeader c = true) (second : Headerless keyword rest) :
    Headerless keyword (cs ++ c :: rest) := by
  intro behind ⟨front, same⟩
  rcases List.append_eq_append_iff.mp same with ⟨middle, rfl, rfl⟩ | ⟨middle, rfl, tail⟩
  · rw [blockHeader?_break rest word breaks, first middle ⟨front, rfl⟩, Option.map_none]
  · cases middle with
    | nil =>
      rw [List.nil_append] at tail
      rw [← tail, ← List.nil_append (c :: rest), blockHeader?_break rest word breaks,
        first [] (List.nil_suffix), Option.map_none]
    | cons d middle =>
      rw [List.cons_append, List.cons.injEq] at tail
      exact second behind ⟨middle, tail.2.symm⟩

theorem cons {c : Char} {rest : List Char} (word : IsWordText keyword) (outside : isWord c = false)
    (later : Headerless keyword rest) : Headerless keyword (c :: rest) := by
  intro behind suffix
  rcases List.suffix_cons_iff.mp suffix with rfl | suffix
  · exact blockHeader?_outside word outside none rest
  · exact later behind suffix

/-- A word in front of another character holds no header, unless it ends with the keyword and a
header goes on from there. -/
theorem word_append {run rest : List Char} {c : Char} (word : IsWordText keyword)
    (inside : ∀ d ∈ run, isWord d = true) (outside : isWord c = false)
    (apart : keyword <:+ run → blockHeader? keyword none (keyword ++ c :: rest) = none)
    (later : Headerless keyword (c :: rest)) : Headerless keyword (run ++ c :: rest) := by
  intro behind ⟨front, same⟩
  rcases List.append_eq_append_iff.mp same with ⟨last, rfl, rfl⟩ | ⟨middle, -, tail⟩
  · rw [Option.eq_none_iff_forall_ne_some]
    intro found header
    obtain rfl := run_of_blockHeader? word (fun d member => inside d (List.mem_append_right _ member))
      (by simpa using outside) header
    rw [apart ⟨front, rfl⟩] at header
    cases header
  · exact later behind ⟨middle, tail.symm⟩

/-- The header of a block of another keyword. -/
theorem header {other name rest : List Char} (word : IsWordText keyword)
    (inside : ∀ c ∈ other, isWord c = true) (differs : ¬ keyword <:+ other)
    (named : IsWordText name) (later : Headerless keyword rest) :
    Headerless keyword (other ++ ' ' :: (name ++ ' ' :: '{' :: rest)) := by
  have blank : Headerless keyword (' ' :: '{' :: rest) :=
    (later.cons word (by decide)).cons word (by decide)
  refine word_append word inside (by decide) (fun same => absurd same differs) ?_
  refine cons word (by decide) (word_append word named.2 (by decide) (fun _ => ?_) blank)
  have gap : ∀ c ∈ [' '], isBlank c = true := by decide
  exact blockHeader?_nameless keyword gap none rest

end Headerless

/-- Behind whatever text without curly brackets, no header begins in front of or in this one. -/
def Guarded (keyword cs : List Char) : Prop :=
  ∀ front, '{' ∉ front → Headerless keyword (front ++ cs)

/-- A text that can stand in front of every guarded one. -/
def Sealed (keyword cs : List Char) : Prop :=
  ∀ rest, Guarded keyword rest → Guarded keyword (cs ++ rest)

namespace Sealed

variable {keyword : List Char}

theorem of_braceless {cs : List Char} (absent : '{' ∉ cs) : Sealed keyword cs := by
  intro rest guarded front outside
  rw [← List.append_assoc]
  exact guarded _ (by simp [outside, absent])

theorem append {as bs : List Char} (first : Sealed keyword as) (second : Sealed keyword bs) :
    Sealed keyword (as ++ bs) := by
  intro rest guarded
  rw [List.append_assoc]
  exact first _ (second _ guarded)

/-- A header neither reaches into parentheses nor out of them. -/
theorem parenthesized {inside : List Char} (word : IsWordText keyword)
    (headerless : Headerless keyword inside) : Sealed keyword ('(' :: inside ++ [')']) := by
  intro rest guarded front outside
  have behind : Headerless keyword rest := guarded [] (by simp)
  have within : Headerless keyword (inside ++ ')' :: rest) :=
    headerless.append word (by decide) behind
  have whole : front ++ ('(' :: inside ++ [')'] ++ rest) =
      front ++ '(' :: (inside ++ ')' :: rest) := by simp
  rw [whole]
  exact (Headerless.of_braceless outside).append word (by decide) within

theorem headerless {cs : List Char} (closed : Sealed keyword cs) : Headerless keyword cs := by
  have nothing : Guarded keyword [] := fun front outside =>
    Headerless.of_braceless (by simpa using outside)
  simpa using closed [] nothing [] (by simp)

end Sealed

end SchemaAtlas.Text
