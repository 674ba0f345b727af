import SchemaAtlas.Fluent.Scan
import SchemaAtlas.Proofs.Text.Headers
import SchemaAtlas.Proofs.Text.Matches

/-!
Where a coarse reading finds a declaration: one at the front of a text is found, and none is found
where no equals sign has a call behind it.
-/

set_option autoImplicit false

namespace SchemaAtlas.Fluent.Scan

open Text

/-- What may stand between the equals sign of a declaration and the bracket of its call. -/
def isCallee (c : Char) : Bool := isWord c || c = '$' || isBlank c

/-- No equals sign has a call behind it. -/
def Uncalled (cs : List Char) : Prop :=
  ∀ front callee back, cs = front ++ '=' :: (callee ++ '(' :: back) →
    ∃ c ∈ callee, isCallee c = false

/-- The text goes on with a character that keeps a sign before it and a bracket behind it apart, if
it goes on. -/
def Parts (cs : List Char) : Prop := ∀ c ∈ cs.head?, isCallee c = false ∧ c ≠ '=' ∧ c ≠ '('

namespace Uncalled

theorem of_unassigned {cs : List Char} (absent : '=' ∉ cs) : Uncalled cs := by
  rintro front callee back rfl
  exact absurd (by simp) absent

theorem append_unopened {as bs : List Char} (first : Uncalled as) (unopened : '(' ∉ bs) :
    Uncalled (as ++ bs) := by
  intro front callee back same
  rcases List.append_eq_append_iff.mp same with ⟨middle, -, rfl⟩ | ⟨middle, rfl, tail⟩
  · exact absurd (by simp) unopened
  · cases middle with
    | nil =>
      rw [List.nil_append] at tail
      exact absurd (by simp [← tail]) unopened
    | cons c middle =>
      obtain ⟨rfl, rest⟩ := List.cons.inj tail
      rcases List.append_eq_append_iff.mp rest with ⟨within, rfl, called⟩ | ⟨within, -, rfl⟩
      · cases within with
        | nil =>
          rw [List.nil_append] at called
          exact absurd (by simp [← called]) unopened
        | cons d within =>
          obtain ⟨rfl, -⟩ := List.cons.inj called
          exact first front callee within rfl
      · exact absurd (by simp) unopened

/-- All opening brackets of the text stand before all of its equals signs. -/
theorem cut {before behind : List Char} (unassigned : '=' ∉ before) (unopened : '(' ∉ behind) :
    Uncalled (before ++ behind) :=
  (of_unassigned unassigned).append_unopened unopened

theorem of_unopened {cs : List Char} (absent : '(' ∉ cs) : Uncalled cs := by
  simpa using cut (by simp : '=' ∉ []) absent

theorem append {as bs : List Char} (first : Uncalled as) (second : Uncalled bs)
    (parts : Parts bs) : Uncalled (as ++ bs) := by
  intro front callee back same
  rcases List.append_eq_append_iff.mp same with ⟨middle, rfl, tail⟩ | ⟨middle, rfl, tail⟩
  · exact second middle callee back tail
  · -- The sign stands in the first text or begins the second, and the bracket in one of the two.
    cases middle with
    | nil => exact second [] callee back (by simpa using tail.symm)
    | cons d middle =>
      obtain ⟨rfl, rest⟩ := List.cons.inj tail
      rcases List.append_eq_append_iff.mp rest with ⟨within, rfl, called⟩ | ⟨within, rfl, called⟩
      · cases within with
        | nil => exact absurd rfl (parts '(' (by simpa using congrArg List.head? called.symm)).2.2
        | cons e within =>
          obtain ⟨rfl, -⟩ := List.cons.inj called
          exact first front callee within rfl
      · cases within with
        | nil => exact absurd rfl (parts '(' (by rw [called]; rfl)).2.2
        | cons e within =>
          exact ⟨e, by simp, (parts e (by simp [called])).1⟩

theorem cons {c : Char} {cs : List Char} (other : c ≠ '=') (later : Uncalled cs) :
    Uncalled (c :: cs) := by
  intro front callee back same
  cases front with
  | nil => exact absurd (List.cons.inj same).1 other
  | cons d front => exact later front callee back (List.cons.inj same).2

end Uncalled

/-- A text that may stand behind every text in which no sign has a call behind it. -/
structure Detached (cs : List Char) : Prop where
  uncalled : Uncalled cs
  parts : Parts cs

theorem Detached.nil : Detached [] := ⟨.of_unopened (by simp), by simp [Parts]⟩

theorem Detached.append {as bs : List Char} (first : Detached as) (second : Detached bs) :
    Detached (as ++ bs) where
  uncalled := first.uncalled.append second.uncalled second.parts
  parts := by
    intro c front
    rw [List.head?_append] at front
    cases held : as.head? with
    | none => exact second.parts c (by simpa [held] using front)
    | some d => exact first.parts c (by simpa [held] using front)

theorem Detached.cons {c : Char} {cs : List Char}
    (breaks : isCallee c = false ∧ c ≠ '=' ∧ c ≠ '(') (later : Uncalled cs) : Detached (c :: cs) where
  uncalled := later.cons breaks.2.1
  parts := by
    rintro _ ⟨⟩
    exact breaks

theorem exists_of_dropMark? {mark : Char} {cs rest : List Char}
    (dropped : dropMark? mark cs = some rest) :
    ∃ gap, cs = gap ++ mark :: rest ∧ ∀ c ∈ gap, isBlank c = true := by
  have whole : cs = cs.takeWhile isBlank ++ trimLeft cs := List.takeWhile_append_dropWhile.symm
  refine ⟨cs.takeWhile isBlank, ?_, List.all_eq_true.mp List.all_takeWhile⟩
  rw [eq_append_of_dropLiteral? dropped] at whole
  simpa using whole

theorem suffix_of_dropMark? {mark : Char} {cs rest : List Char}
    (dropped : dropMark? mark cs = some rest) : mark :: rest <:+ cs := by
  obtain ⟨gap, rfl, -⟩ := exists_of_dropMark? dropped
  exact List.suffix_append gap _

/-- A mark is not found beyond a character that is none and no blank. -/
theorem dropMark?_eq_none {mark other : Char} {cs : List Char} (absent : mark ∉ cs)
    (differs : other ≠ mark) (solid : isBlank other = false) (rest : List Char) :
    dropMark? mark (cs ++ other :: rest) = none := by
  rw [Option.eq_none_iff_forall_ne_some]
  intro behind dropped
  obtain ⟨gap, same, blank⟩ := exists_of_dropMark? dropped
  rcases List.append_eq_append_iff.mp same with ⟨middle, rfl, tail⟩ | ⟨middle, rfl, tail⟩
  · cases middle with
    | nil => exact differs (List.cons.inj tail).1
    | cons c middle =>
      obtain ⟨rfl, -⟩ := List.cons.inj tail
      have here := blank other (by simp)
      rw [solid] at here
      cases here
  · cases middle with
    | nil => exact differs (List.cons.inj tail).1.symm
    | cons c middle =>
      obtain ⟨rfl, -⟩ := List.cons.inj tail
      exact absent (by simp)

theorem suffix_of_dropBlanks? {cs rest : List Char} (dropped : dropBlanks? cs = some rest) :
    rest <:+ cs := by
  obtain ⟨gap, -, -, rfl⟩ := eq_append_of_dropBlanks? dropped
  exact List.suffix_append gap rest

/-- A declaration has a name, and an equals sign with a call behind it. -/
theorem opening?_shape {cs : List Char} {found : Opening × List Char}
    (opens : opening? cs = some found) :
    IsWordText found.1.name.toList ∧ found.1.behind = found.2 ∧ ¬ Uncalled cs := by
  simp only [opening?, takeWord?, Option.bind_eq_bind, Option.bind_eq_some_iff] at opens
  obtain ⟨cs₁, exports, cs₂, blanks, cs₃, constant, cs₄, gap, ⟨name, cs₅⟩, taken, cs₆, equals,
    ⟨callee, cs₇⟩, called, behind, bracket, same⟩ := opens
  cases same
  have word := eq_append_of_takeRun? taken
  refine ⟨⟨fun empty => ?_, by simpa using word.2⟩, rfl, fun uncalled => ?_⟩
  · exact ne_nil_of_takeRun? taken (by simpa using empty)
  · have call := eq_append_of_takeRun? called
    obtain ⟨space, sign, -⟩ := exists_of_dropMark? equals
    obtain ⟨blank, opener, empty⟩ := exists_of_dropMark? bracket
    have front : cs₅ <:+ cs := calc
      cs₅ <:+ cs₄ := ⟨_, word.1.symm⟩
      _ <:+ cs₃ := suffix_of_dropBlanks? gap
      _ <:+ cs₂ := ⟨_, (eq_append_of_dropLiteral? constant).symm⟩
      _ <:+ cs₁ := suffix_of_dropBlanks? blanks
      _ <:+ cs := ⟨_, (eq_append_of_dropLiteral? exports).symm⟩
    obtain ⟨before, whole⟩ := front
    have lead : cs₆ = cs₆.takeWhile isBlank ++ trimLeft cs₆ :=
      List.takeWhile_append_dropWhile.symm
    rw [call.1, show cs₇ = _ from opener] at lead
    rw [show cs₅ = _ from sign] at whole
    obtain ⟨c, member, outside⟩ := uncalled (before ++ space)
      (cs₆.takeWhile isBlank ++ callee ++ blank) behind (by
        rw [← whole]
        nth_rewrite 1 [lead]
        simp)
    have inside : isCallee c = true := by
      rw [List.mem_append, List.mem_append] at member
      rcases member with (lead | within) | last
      · simp [isCallee, List.all_eq_true.mp List.all_takeWhile c lead]
      · have part := call.2 c within
        simp only [isCallee, Bool.or_eq_true] at part ⊢
        exact .inl part
      · simp [isCallee, empty c last]
    rw [inside] at outside
    cases outside

/-- The arguments of a declaration and their bracket stand behind its first character. -/
theorem suffix_of_opening? {cs : List Char} {found : Opening × List Char}
    (opens : opening? cs = some found) : '(' :: found.1.behind <:+ cs.tail := by
  simp only [opening?, takeWord?, Option.bind_eq_bind, Option.bind_eq_some_iff] at opens
  obtain ⟨cs₁, exports, cs₂, blanks, cs₃, constant, cs₄, gap, ⟨name, cs₅⟩, taken, cs₆, equals,
    ⟨callee, cs₇⟩, called, behind, bracket, same⟩ := opens
  cases same
  have run {members : Char → Bool} {as bs word : List Char}
      (taken : takeRun? members as = some (word, bs)) : bs <:+ as :=
    ⟨word, (eq_append_of_takeRun? taken).1.symm⟩
  rw [eq_append_of_dropLiteral? exports]
  calc '(' :: behind
    _ <:+ cs₇ := suffix_of_dropMark? bracket
    _ <:+ trimLeft cs₆ := run called
    _ <:+ cs₆ := List.dropWhile_suffix isBlank
    _ <:+ '=' :: cs₆ := List.suffix_cons '=' cs₆
    _ <:+ cs₅ := suffix_of_dropMark? equals
    _ <:+ cs₄ := run taken
    _ <:+ cs₃ := suffix_of_dropBlanks? gap
    _ <:+ cs₂ := ⟨_, (eq_append_of_dropLiteral? constant).symm⟩
    _ <:+ cs₁ := suffix_of_dropBlanks? blanks
    _ <:+ ['x', 'p', 'o', 'r', 't'] ++ cs₁ := List.suffix_append _ _

theorem suffix_of_tableArguments? {keywords : DrizzleKeywords} {opening : Opening}
    {arguments : List Char} (made : tableArguments? keywords opening = some arguments) :
    arguments <:+ opening.behind := by
  unfold tableArguments? at made
  split at made
  next =>
    obtain ⟨⟨inner, rest⟩, group, called⟩ := Option.bind_eq_some_iff.mp made
    obtain ⟨closer, -, whole⟩ := eq_append_of_closeGroup? group
    calc arguments
      _ <:+ '(' :: arguments := List.suffix_cons '(' arguments
      _ <:+ rest := suffix_of_dropMark? called
      _ <:+ closer :: rest := List.suffix_cons closer rest
      _ <:+ opening.behind := ⟨inner, whole.symm⟩
  next =>
    split at made
    next =>
      cases made
      exact List.suffix_rfl
    next => cases made

theorem suffix_of_quotedText? {quotes inner cs : List Char} {found : List Char × List Char}
    (quoted : quotedText? quotes inner cs = some found) : found.2 <:+ cs := by
  unfold quotedText? at quoted
  split at quoted
  next quote rest front =>
    split at quoted
    next =>
      simp only [Option.bind_eq_bind, Option.bind_eq_some_iff] at quoted
      obtain ⟨⟨text, behind⟩, taken, last, closed, same⟩ := quoted
      cases same
      calc last
        _ <:+ behind := ⟨_, (eq_append_of_dropLiteral? closed).symm⟩
        _ <:+ rest := ⟨_, (eq_append_of_takeRun? taken).1.symm⟩
        _ <:+ quote :: rest := List.suffix_cons quote rest
        _ <:+ cs := front ▸ List.dropWhile_suffix isBlank
    next => cases quoted
  next => cases quoted

/-- The columns of a table and their brace stand in the arguments of its call. -/
theorem suffix_of_tableHead? {arguments : List Char} {found : List Char × List Char}
    (head : tableHead? arguments = some found) : '{' :: found.2 <:+ arguments := by
  simp only [tableHead?, Option.bind_eq_bind, Option.bind_eq_some_iff] at head
  obtain ⟨⟨name, rest⟩, quoted, behind, comma, body, brace, same⟩ := head
  cases same
  calc '{' :: body
    _ <:+ behind := suffix_of_dropMark? brace
    _ <:+ ',' :: behind := List.suffix_cons ',' behind
    _ <:+ rest := suffix_of_dropMark? comma
    _ <:+ arguments := suffix_of_quotedText? quoted

/-- No declaration begins in a text in which no sign has a call behind it. -/
theorem Uncalled.opening?_eq_none {cs rest : List Char} (uncalled : Uncalled cs)
    (behind : rest <:+ cs) : opening? rest = none := by
  rw [Option.eq_none_iff_forall_ne_some]
  intro found opens
  refine (opening?_shape opens).2.2 fun front callee back same => ?_
  obtain ⟨before, rfl⟩ := behind
  exact uncalled (before ++ front) callee back (by simp [same])

/-- The text of a declaration up to the opening bracket of its call. -/
def openingText (name callee : List Char) : List Char :=
  ['e', 'x', 'p', 'o', 'r', 't'] ++ ' ' :: (['c', 'o', 'n', 's', 't'] ++ ' ' :: (name ++
    ' ' :: '=' :: ' ' :: (callee ++ ['('])))

theorem openingText_append (name callee behind : List Char) :
    openingText name callee ++ behind = ['e', 'x', 'p', 'o', 'r', 't'] ++ ' ' ::
      (['c', 'o', 'n', 's', 't'] ++ ' ' :: (name ++ ' ' :: '=' :: ' ' ::
        (callee ++ '(' :: behind))) := by
  simp [openingText]

theorem opening?_openingText {name callee : List Char} (named : IsWordText name)
    (called : IsWordText callee) (behind : List Char) :
    opening? (openingText name callee ++ behind) =
      some ({ name := String.ofList name, callee := String.ofList callee, behind }, behind) := by
  have constant : IsWordText ['c', 'o', 'n', 's', 't'] := by decide
  have word : takeWord? (name ++ ' ' :: '=' :: ' ' :: (callee ++ '(' :: behind)) =
      some (name, ' ' :: '=' :: ' ' :: (callee ++ '(' :: behind)) := by
    refine takeWord?_append named ?_
    rintro _ ⟨⟩
    decide
  have solid : ∀ c ∈ (callee ++ '(' :: behind).head?, isBlank c = false := by
    intro c first
    rw [List.head?_append_of_ne_nil _ called.1] at first
    exact isBlank_of_isWord (called.2 c (List.mem_of_mem_head? first))
  have equals : dropMark? '=' (' ' :: '=' :: ' ' :: (callee ++ '(' :: behind)) =
      some (' ' :: (callee ++ '(' :: behind)) := rfl
  have front : trimLeft (' ' :: (callee ++ '(' :: behind)) = callee ++ '(' :: behind := by
    rw [show ' ' :: (callee ++ '(' :: behind) = [' '] ++ (callee ++ '(' :: behind) from rfl,
      trimLeft_append (by decide), trimLeft_eq_self solid]
  have call : takeRun? (fun c => isWord c || decide (c = '$')) (callee ++ '(' :: behind) =
      some (callee, '(' :: behind) := by
    refine takeRun?_append called.1 (fun c member => by simp [called.2 c member]) ?_
    rintro _ ⟨⟩
    decide
  have bracket : dropMark? '(' ('(' :: behind) = some behind := rfl
  rw [openingText_append, opening?]
  simp only [Option.bind_eq_bind, dropLiteral?_append, Option.bind_some, dropBlanks?_word constant,
    dropBlanks?_word named, word, equals, front, call, bracket]
  rfl

/-- A declaration at the front of a text with no further one behind it. -/
theorem openings_single {name callee behind : List Char} (named : IsWordText name)
    (called : IsWordText callee) (uncalled : Uncalled behind) :
    allMatches (fun _ => opening?) (openingText name callee ++ behind) =
      [{ name := String.ofList name, callee := String.ofList callee, behind }] := by
  have quiet : matchesFrom (fun _ => opening?) 0 (openingText name callee).getLast? behind = [] :=
    matchesFrom_eq_nil _ fun _ _ suffix => uncalled.opening?_eq_none suffix
  rw [allMatches, matchesFrom_append (by simp [openingText])
    (opening?_openingText named called behind), quiet]

/-- A quoted text at the front. -/
theorem quotedText?_quoted {quotes inner text : List Char} {quote : Char} (begins : quote ∈ quotes)
    (ends : quote ∈ inner) (solid : isBlank quote = false) (some : text ≠ [])
    (plain : ∀ c ∈ text, c ∉ inner) (rest : List Char) :
    quotedText? quotes inner (quote :: (text ++ quote :: rest)) = .some (text, rest) := by
  have front : trimLeft (quote :: (text ++ quote :: rest)) = quote :: (text ++ quote :: rest) := by
    refine trimLeft_eq_self ?_
    rintro _ ⟨⟩
    exact solid
  have taken : takeRun? (· ∉ inner) (text ++ quote :: rest) = .some (text, quote :: rest) := by
    refine takeRun?_append some (fun c member => by simp [plain c member]) ?_
    rintro _ ⟨⟩
    simp [ends]
  have closes : dropLiteral? [quote] (quote :: rest) = .some rest := dropLiteral?_append [quote] rest
  rw [quotedText?, front]
  simp only [if_pos begins, taken, closes, Option.bind_eq_bind, Option.bind_some, Option.pure_def]

end SchemaAtlas.Fluent.Scan
