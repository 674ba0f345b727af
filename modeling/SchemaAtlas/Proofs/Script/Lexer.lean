import SchemaAtlas.Proofs.Text.Runs
import SchemaAtlas.Script.Lexer

/-!
Tokens read off the front of a text: names, strings, numbers and signs, whatever text follows.
-/

set_option autoImplicit false

namespace SchemaAtlas.Script

open Text

namespace ScanState

/-- No template is open. -/
def Plain (state : ScanState) : Prop := ∀ template ∈ state.braces, template = false

theorem Plain.behind {state : ScanState} (plain : state.Plain) {kind : TokenKind}
    (untemplated : kind ≠ .templateHead) (text : String) : (state.behind kind text).Plain := by
  intro template member
  unfold ScanState.behind at member
  dsimp only at member
  split at member
  next => exact absurd rfl untemplated
  next => exact plain template (List.mem_of_mem_drop member)
  next =>
    split at member
    next => exact (List.mem_cons.mp member).elim id (plain template)
    next =>
      split at member
      next => exact plain template (List.mem_of_mem_drop member)
      next => exact plain template member
  next => exact plain template member

end ScanState

/-- A text is split into certain tokens behind a gap on the first line, outside templates. -/
def Spells (gap cs : List Char) (tokens : List Token) : Prop :=
  ∀ state : ScanState, state.gap.reverse = gap → state.line = 1 → state.Plain →
    tokensFrom state 0 cs = tokens

theorem Spells.tokens {cs : List Char} {tokens : List Token} (spells : Spells [] cs tokens)
    (uncalled : cs.head? ≠ some '#') : Script.tokens cs = tokens := by
  have whole : dropInterpreterLine cs = cs := by
    unfold dropInterpreterLine
    split
    next => exact absurd rfl uncalled
    next => rfl
  rw [Script.tokens, whole]
  exact spells {} rfl rfl (by simp [ScanState.Plain])

theorem Spells.nil (gap : List Char) : Spells gap [] [] := fun _ _ _ _ => rfl

theorem Spells.space (gap : List Char) {cs : List Char} {tokens : List Token}
    (later : Spells (gap ++ [' ']) cs tokens) : Spells gap (' ' :: cs) tokens := by
  intro state before line plain
  rw [tokensFrom]
  exact later _ (by simp [before]) line plain

theorem tokensFrom_skip (state : ScanState) {skipped : List Char} (whole : '\n' ∉ skipped)
    (rest : List Char) :
    tokensFrom state skipped.length (skipped ++ rest) = tokensFrom state 0 rest := by
  induction skipped with
  | nil => rfl
  | cons c skipped ih =>
    rw [List.mem_cons, not_or] at whole
    rw [List.cons_append, List.length_cons, tokensFrom, if_neg (Ne.symm whole.1)]
    exact ih whole.2

/-- The token that a text begins with, if it is found there whatever stands before it. -/
theorem Spells.token {gap : List Char} {c : Char} {more rest : List Char} {kind : TokenKind}
    {tokens : List Token} (solid : isSpacing c = false) (slash : c ≠ '/')
    (whole : '\n' ∉ c :: more) (untemplated : kind ≠ .templateHead)
    (found : ∀ state : ScanState, state.Plain → lexeme state (c :: (more ++ rest)) = (kind, c :: more))
    (later : Spells [] rest tokens) :
    Spells gap (c :: (more ++ rest))
      ({ kind, text := String.ofList (c :: more), gap } :: tokens) := by
  intro state before line plain
  rw [List.mem_cons, not_or] at whole
  have uncommented : comment? (c :: (more ++ rest)) = none := by
    unfold comment?
    split
    next same => exact absurd (List.cons.inj same).1 slash
    next same => exact absurd (List.cons.inj same).1 slash
    next => rfl
  rw [tokensFrom, if_neg (by simp [solid])]
  simp only [uncommented, found state plain, before, line, List.length_cons, Nat.add_sub_cancel,
    if_neg (Ne.symm whole.1)]
  rw [tokensFrom_skip _ whole.2]
  congr 1
  exact later _ rfl rfl (plain.behind untemplated _)

theorem isWord_of_breaker : ∀ c ∈ nameBreakers, isWord c = false := by decide

/-- The spacing characters outside ASCII. -/
def wideSpacings : List Nat := [0x200B, 0x2060, 0xFEFF] ++ wideBlanks

theorem wideSpacings_no_words : ∀ n ∈ wideSpacings, inRanges n wordRanges = false := by
  decide +kernel

theorem isNamePart_of_isWord {c : Char} (word : isWord c = true) : isNamePart c = true := by
  have free : c ∉ nameBreakers := fun member => by
    rw [isWord_of_breaker c member] at word
    cases word
  have spaceless : isSpacing c = false ∧ 32 ≤ c.toNat := by
    by_cases small : c.toNat < 128
    next =>
      simp only [isWord, small, if_true, Bool.or_eq_true, Bool.and_eq_true, decide_eq_true_eq,
        beq_iff_eq] at word
      simp only [isSpacing, Bool.or_eq_false_iff, beq_eq_false_iff_ne, Bool.and_eq_false_iff,
        decide_eq_false_iff_not]
      omega
    next =>
      refine ⟨?_, by omega⟩
      by_contra spacing
      rw [Bool.not_eq_false] at spacing
      have wide : c.toNat ∈ wideSpacings := by
        simp only [isSpacing, Bool.or_eq_true, beq_iff_eq, Bool.and_eq_true,
          decide_eq_true_eq] at spacing
        simp only [wideSpacings, wideBlanks, List.mem_append, List.mem_cons, List.not_mem_nil, or_false]
        omega
      have none := wideSpacings_no_words _ wide
      simp only [isWord, small, if_false] at word
      rw [word] at none
      cases none
  simp [isNamePart, spaceless.1, spaceless.2, free]

/-- No name goes on into a text. -/
def EndsName (cs : List Char) : Prop := ∀ c ∈ cs.head?, isNamePart c = false ∧ c ≠ '\\'

theorem EndsName.cons {c : Char} (ends : isNamePart c = false ∧ c ≠ '\\') (cs : List Char) :
    EndsName (c :: cs) := by
  rintro _ ⟨⟩
  exact ends

theorem nameFrom_append {word rest : List Char} (inside : ∀ c ∈ word, isNamePart c = true)
    (stops : EndsName rest) : nameFrom 0 (word ++ rest) = word := by
  induction word with
  | nil =>
    cases rest with
    | nil => rfl
    | cons c rest =>
      obtain ⟨outside, unescaped⟩ := stops c rfl
      rw [List.nil_append, nameFrom, if_neg (by simp [outside]), if_neg unescaped]
  | cons c word ih =>
    rw [List.cons_append, nameFrom, if_pos (inside c (.head _)),
      ih fun d member => inside d (.tail _ member)]

/-- What begins as a name and goes on as one, in front of a character that no name holds. -/
theorem Spells.run (gap : List Char) {rest : List Char} {name : List Char} {tokens : List Token}
    (held : name ≠ []) (parts : ∀ c ∈ name, isNamePart c = true)
    (undigited : ∀ c ∈ name.head?, c.isDigit = false) (stops : EndsName rest)
    (later : Spells [] rest tokens) :
    Spells gap (name ++ rest) ({ kind := .word, text := String.ofList name, gap } :: tokens) := by
  cases name with
  | nil => exact absurd rfl held
  | cons c more =>
    have part := parts c (.head _)
    have begins : isNameStart c = true := by simp [isNameStart, part, undigited c rfl]
    have apart {d : Char} (outside : isNamePart d = false) : c ≠ d := by
      rintro rfl
      rw [part] at outside
      cases outside
    have whole : '\n' ∉ c :: more := fun member =>
      absurd (parts _ member) (by decide)
    refine .token ?_ (apart (by decide)) whole (by decide) (fun state _ => ?_) later
    · simp only [isNamePart, Bool.and_eq_true, Bool.not_eq_true'] at part
      exact part.1.2
    · have name : nameFrom 0 (c :: (more ++ rest)) = c :: more := nameFrom_append parts stops
      have quotes : ¬ (c = '\'' ∨ c = '"') := by
        rw [not_or]
        exact ⟨apart (by decide), apart (by decide)⟩
      have tick : c ≠ '\x60' := apart (by decide)
      have brace : ¬ (c = '\x7d' ∧ state.braces.head? = some true) := fun both =>
        apart (by decide) both.1
      unfold lexeme
      simp only [if_neg quotes, if_neg tick, if_neg brace, if_pos (Or.inl begins), name]

theorem Spells.word (gap : List Char) {rest : List Char} {name : List Char} {tokens : List Token}
    (isWordText : IsWordText name) (undigited : ∀ c ∈ name.head?, c.isDigit = false)
    (stops : EndsName rest) (later : Spells [] rest tokens) :
    Spells gap (name ++ rest) ({ kind := .word, text := String.ofList name, gap } :: tokens) :=
  .run gap isWordText.1 (fun c member => isNamePart_of_isWord (isWordText.2 c member)) undigited
    stops later

theorem stringFrom_append {quote : Char} {inside : List Char} (unquoted : quote ∉ inside)
    (plain : ∀ c ∈ inside, c ≠ '\n' ∧ c ≠ '\r' ∧ c ≠ '\\') (rest : List Char) :
    stringFrom quote 0 (inside ++ quote :: rest) = some (inside ++ [quote]) := by
  induction inside with
  | nil => simp [stringFrom]
  | cons c inside ih =>
    rw [List.mem_cons, not_or] at unquoted
    obtain ⟨feed, carriage, backslash⟩ := plain c (.head _)
    rw [List.cons_append, stringFrom, if_neg (Ne.symm unquoted.1),
      if_neg (by simp [feed, carriage]), if_neg backslash,
      ih unquoted.2 fun d member => plain d (.tail _ member)]
    rfl

theorem Spells.string {gap rest : List Char} {quote : Char} {inside : List Char}
    {tokens : List Token} (quotes : quote = '\'' ∨ quote = '"') (unquoted : quote ∉ inside)
    (plain : ∀ c ∈ inside, c ≠ '\n' ∧ c ≠ '\r' ∧ c ≠ '\\') (later : Spells [] rest tokens) :
    Spells gap (quote :: (inside ++ quote :: rest))
      ({ kind := .string, text := String.ofList (quote :: (inside ++ [quote])), gap } ::
        tokens) := by
  have whole : '\n' ∉ quote :: (inside ++ [quote]) := by
    have unbroken : '\n' ∉ inside := fun member => (plain _ member).1 rfl
    rcases quotes with rfl | rfl <;> simp [unbroken]
  have split : quote :: (inside ++ quote :: rest) = quote :: ((inside ++ [quote]) ++ rest) := by simp
  rw [split]
  refine .token ?_ ?_ whole (by decide) (fun state _ => ?_) later
  · rcases quotes with rfl | rfl <;> decide
  · rcases quotes with rfl | rfl <;> decide
  · have same : inside ++ [quote] ++ rest = inside ++ quote :: rest := by simp
    unfold lexeme
    simp only [if_pos quotes, same, stringFrom_append unquoted plain]

/-- Digits, perhaps with a point and further digits behind them. -/
inductive IsNumeral : List Char → Prop
  | whole {whole : List Char} (some : whole ≠ []) (each : ∀ c ∈ whole, c.isDigit = true) :
      IsNumeral whole
  | decimal {whole fraction : List Char} (some : whole ≠ []) (each : ∀ c ∈ whole, c.isDigit = true)
      (more : ∀ c ∈ fraction, c.isDigit = true) : IsNumeral (whole ++ '.' :: fraction)

/-- Characters in front of which a literal ends. -/
def delimiters : List Char := [' ', ',', ';', ')', ']', '\x7d']

/-- A text goes on with a delimiter, if it goes on. -/
def Delimited (cs : List Char) : Prop := ∀ c ∈ cs.head?, c ∈ delimiters

theorem Delimited.cons {c : Char} (delimiter : c ∈ delimiters) (cs : List Char) :
    Delimited (c :: cs) := by
  rintro _ ⟨⟩
  exact delimiter

theorem Delimited.endsName {cs : List Char} (delimited : Delimited cs) : EndsName cs := by
  have each : ∀ c ∈ delimiters, isNamePart c = false ∧ c ≠ '\\' := by decide
  exact fun c first => each c (delimited c first)

theorem digits_append {whole rest : List Char} (each : ∀ c ∈ whole, c.isDigit = true)
    (stops : ∀ c ∈ rest.head?, c.isDigit = false ∧ c ≠ '_') :
    digits Char.isDigit (whole ++ rest) = whole := by
  have from' : digitsFrom Char.isDigit (whole ++ rest) = whole := by
    induction whole with
    | nil =>
      cases rest with
      | nil => rfl
      | cons c rest =>
        obtain ⟨other, solid⟩ := stops c rfl
        rw [List.nil_append]
        unfold digitsFrom
        rw [if_neg (by simp [other])]
        split
        next => exact absurd rfl solid
        next => rfl
    | cons c whole ih =>
      rw [List.cons_append]
      unfold digitsFrom
      rw [if_pos (each c (.head _)), ih fun d member => each d (.tail _ member)]
  have front : (whole ++ rest).head? ≠ some '_' := by
    intro first
    cases whole with
    | nil => exact (stops _ first).2 rfl
    | cons c whole =>
      cases first
      exact absurd (each '_' (.head _)) (by decide)
  rw [digits, if_neg front, from']

theorem prefixedNumber?_eq_none {c : Char} {cs : List Char}
    (plain : ∀ d ∈ cs.head?, d ∉ ['x', 'X', 'b', 'B', 'o', 'O']) : prefixedNumber? (c :: cs) = none := by
  unfold prefixedNumber?
  split
  next mark rest same =>
    obtain ⟨-, rfl⟩ := List.cons.inj same
    have other := plain mark rfl
    simp only [List.mem_cons, List.not_mem_nil, or_false, not_or] at other
    simp [other]
  next => rfl

theorem delimiters_plain : ∀ c ∈ delimiters, c.isDigit = false ∧ c ≠ '_' ∧
    c ∉ ['x', 'X', 'b', 'B', 'o', 'O'] := by
  decide

theorem exponent_delimited {rest : List Char} (stops : Delimited rest) :
    exponent rest = [] := by
  have plain : ∀ c ∈ delimiters, ¬ (c = 'e' ∨ c = 'E') := by decide
  cases rest with
  | nil => rfl
  | cons c rest => rw [exponent, if_neg (plain c (stops c rfl))]

theorem decimalNumber?_whole {whole rest : List Char} (some : whole ≠ [])
    (each : ∀ c ∈ whole, c.isDigit = true) (stops : Delimited rest) :
    decimalNumber? (whole ++ rest) = .some whole := by
  have run : digits Char.isDigit (whole ++ rest) = whole :=
    digits_append each fun c first => (delimiters_plain c (stops c first)).imp_right (·.1)
  have ends := exponent_delimited stops
  cases whole with
  | nil => exact absurd rfl some
  | cons d whole =>
    unfold decimalNumber?
    simp only [run, List.drop_left]
    cases rest with
    | nil => simpa using ends
    | cons c rest =>
      have here := stops c rfl
      simp only [delimiters, List.mem_cons, List.not_mem_nil, or_false] at here
      rcases here with rfl | rfl | rfl | rfl | rfl | rfl <;> simpa using ends

theorem decimalNumber?_decimal {whole fraction rest : List Char} (some : whole ≠ [])
    (each : ∀ c ∈ whole, c.isDigit = true) (more : ∀ c ∈ fraction, c.isDigit = true)
    (stops : Delimited rest) :
    decimalNumber? (whole ++ '.' :: (fraction ++ rest)) = .some (whole ++ '.' :: fraction) := by
  have run : digits Char.isDigit (whole ++ '.' :: (fraction ++ rest)) = whole :=
    digits_append each (by simp)
  have part : digits Char.isDigit (fraction ++ rest) = fraction :=
    digits_append more fun c first => (delimiters_plain c (stops c first)).imp_right (·.1)
  cases whole with
  | nil => exact absurd rfl some
  | cons d whole =>
    unfold decimalNumber?
    simp only [run, List.drop_left, part, exponent_delimited stops, List.append_nil]

theorem IsNumeral.numberText?_append {cs rest : List Char} (numeral : IsNumeral cs)
    (stops : Delimited rest) : numberText? (cs ++ rest) = some cs := by
  have letters : ∀ d ∈ ['x', 'X', 'b', 'B', 'o', 'O'], d.isDigit = false ∧ d ≠ '.' := by decide
  -- The second character is a digit, the point or a delimiter, so that no prefix is read.
  have unprefixed {whole more : List Char} (some : whole ≠ [])
      (each : ∀ c ∈ whole, c.isDigit = true) (plain : ∀ d ∈ more.head?, d = '.' ∨ d ∈ delimiters) :
      prefixedNumber? (whole ++ more) = none := by
    cases whole with
    | nil => exact absurd rfl some
    | cons c whole =>
      refine prefixedNumber?_eq_none fun d first letter => ?_
      cases whole with
      | nil =>
        rcases plain d first with point | delimiter
        · exact (letters d letter).2 point
        · exact (delimiters_plain d delimiter).2.2 letter
      | cons e whole =>
        cases first
        have digit := each d (.tail _ (.head _))
        rw [(letters d letter).1] at digit
        cases digit
  cases numeral with
  | whole some each =>
    rw [numberText?, unprefixed some each fun d first => .inr (stops d first), Option.none_or,
      decimalNumber?_whole some each stops]
  | decimal some each more =>
    rw [List.append_assoc, List.cons_append, numberText?,
      unprefixed some each (by simp), Option.none_or,
      decimalNumber?_decimal some each more stops]

theorem IsNumeral.front {cs : List Char} (numeral : IsNumeral cs) :
    (∃ c more, cs = c :: more ∧ c.isDigit = true) ∧ ∀ c ∈ cs, c.isDigit = true ∨ c = '.' := by
  cases numeral with
  | whole some each =>
    obtain ⟨c, more, rfl⟩ := List.exists_cons_of_ne_nil some
    exact ⟨⟨c, more, rfl, each c (.head _)⟩, fun d member => .inl (each d member)⟩
  | decimal some each more =>
    obtain ⟨c, whole, rfl⟩ := List.exists_cons_of_ne_nil some
    refine ⟨⟨c, _, rfl, each c (.head _)⟩, fun d member => ?_⟩
    rcases List.mem_append.mp member with before | behind
    · exact .inl (each d before)
    · rcases List.mem_cons.mp behind with rfl | behind
      · exact .inr rfl
      · exact .inl (more d behind)

theorem Spells.number {gap cs rest : List Char} {tokens : List Token} (numeral : IsNumeral cs)
    (stops : Delimited rest) (later : Spells [] rest tokens) :
    Spells gap (cs ++ rest) ({ kind := .number, text := String.ofList cs, gap } :: tokens) := by
  obtain ⟨⟨c, more, rfl, digit⟩, each⟩ := numeral.front
  have apart {d : Char} (other : d.isDigit = false) : c ≠ d := by
    rintro rfl
    rw [digit] at other
    cases other
  have whole : '\n' ∉ c :: more := fun member => (each _ member).elim (by decide) (by decide)
  have range : 48 ≤ c.toNat ∧ c.toNat ≤ 57 := by
    simpa [Char.isDigit, UInt32.le_iff_toNat_le] using digit
  refine .token ?_ (apart (by decide)) whole (by decide) (fun state _ => ?_) later
  · simp only [isSpacing, Bool.or_eq_false_iff, beq_eq_false_iff_ne, Bool.and_eq_false_iff,
      decide_eq_false_iff_not]
    omega
  · have quotes : ¬ (c = '\'' ∨ c = '"') := not_or.mpr ⟨apart (by decide), apart (by decide)⟩
    have tick : c ≠ '\x60' := apart (by decide)
    have brace : ¬ (c = '\x7d' ∧ state.braces.head? = some true) := fun both =>
      apart (by decide) both.1
    have name : ¬ (isNameStart c = true ∨ c = '\\') :=
      not_or.mpr ⟨by simp [isNameStart, digit], apart (by decide)⟩
    have mark : c ≠ '#' := apart (by decide)
    have found := numeral.numberText?_append stops
    rw [List.cons_append] at found
    unfold lexeme
    simp only [if_neg quotes, if_neg tick, if_neg brace, if_neg name, if_neg mark, found]

/-- Characters that are signs of their own, whatever follows. -/
def soloSigns : List Char := ['(', ')', '[', ']', '{', '}', ',', ':', ';']

theorem signText?_solo {c : Char} (solo : c ∈ soloSigns) (rest : List Char) :
    signText? (c :: rest) = some [c] := by
  simp only [soloSigns, List.mem_cons, List.not_mem_nil, or_false] at solo
  rcases solo with rfl | rfl | rfl | rfl | rfl | rfl | rfl | rfl | rfl <;> rfl

theorem digits_eq_nil {cs : List Char} (stops : ∀ c ∈ cs.head?, c.isDigit = false) :
    digits Char.isDigit cs = [] := by
  by_cases front : cs.head? = some '_'
  · rw [digits, if_pos front]
  · have run : digits Char.isDigit ([] ++ cs) = [] := by
      refine digits_append (by simp) fun c first => ⟨stops c first, ?_⟩
      rintro rfl
      exact front first
    exact run

theorem numberText?_eq_none {c : Char} (other : c.isDigit = false) {cs : List Char}
    (point : c = '.' → ∀ d ∈ cs.head?, d.isDigit = false) : numberText? (c :: cs) = none := by
  have unprefixed : prefixedNumber? (c :: cs) = none := by
    unfold prefixedNumber?
    split
    next same =>
      obtain ⟨rfl, -⟩ := List.cons.inj same
      exact absurd other (by decide)
    next => rfl
  have none : digits Char.isDigit (c :: cs) = [] := digits_eq_nil (by simpa using other)
  rw [numberText?, unprefixed, Option.none_or]
  unfold decimalNumber?
  simp only [none, List.length_nil, List.drop_zero]
  split
  next same =>
    obtain ⟨rfl, rfl⟩ := List.cons.inj same
    simp [digits_eq_nil (point rfl)]
  next => rfl
  all_goals contradiction

/-- A sign that no name, string, number or template begins with. -/
theorem Spells.sign {gap rest : List Char} (more : List Char) {c : Char} {tokens : List Token}
    (marks : c ∈ '.' :: '=' :: soloSigns)
    (point : c = '.' → ∀ d ∈ (more ++ rest).head?, d.isDigit = false) (plain : '\n' ∉ more)
    (found : signText? (c :: (more ++ rest)) = some (c :: more)) (later : Spells [] rest tokens) :
    Spells gap (c :: (more ++ rest))
      ({ kind := .sign, text := String.ofList (c :: more), gap } :: tokens) := by
  have facts : ∀ c ∈ '.' :: '=' :: soloSigns, isSpacing c = false ∧ c ≠ '/' ∧ c ≠ '\n' ∧
      c ≠ '\'' ∧ c ≠ '"' ∧ c ≠ '\x60' ∧ c ≠ '\\' ∧ c ≠ '#' ∧ isNameStart c = false ∧
      c.isDigit = false := by decide
  obtain ⟨solid, slash, feed, single, double, tick, backslash, mark, name, digit⟩ := facts c marks
  have whole : '\n' ∉ c :: more := by simp [Ne.symm feed, plain]
  refine .token solid slash whole (by decide) (fun state open' => ?_) later
  have brace : ¬ (c = '\x7d' ∧ state.braces.head? = some true) := by
    rintro ⟨-, top⟩
    exact absurd (open' true (List.mem_of_mem_head? top)) (by decide)
  have regex : regexText? (c :: (more ++ rest)) = none := by
    unfold regexText?
    split
    next same => exact absurd (List.cons.inj same).1 slash
    next => rfl
  have number := numberText?_eq_none digit point
  unfold lexeme
  simp only [single, double, tick, brace, name, backslash, mark, or_self, Bool.false_eq_true,
    if_false, number, regex, ite_self, found]

/-- A sign that stands alone whatever follows. -/
theorem Spells.solo (gap : List Char) (c : Char) {rest : List Char} {tokens : List Token}
    (solo : c ∈ soloSigns) (later : Spells [] rest tokens) :
    Spells gap (c :: rest) ({ kind := .sign, text := String.ofList [c], gap } :: tokens) := by
  have other : ∀ c ∈ soloSigns, c ≠ '.' := by decide
  exact .sign [] (.tail _ (.tail _ solo)) (fun point => absurd point (other c solo))
    (by simp) (signText?_solo solo rest) later

theorem Spells.equals (gap : List Char) {rest : List Char} {tokens : List Token}
    (later : Spells [] (' ' :: rest) tokens) :
    Spells gap ('=' :: ' ' :: rest) ({ kind := .sign, text := "=", gap } :: tokens) :=
  .sign [] (by decide) (by simp) (by simp) rfl later

theorem Spells.arrow (gap : List Char) {rest : List Char} {tokens : List Token} (later : Spells [] rest tokens) :
    Spells gap ('=' :: '>' :: rest) ({ kind := .sign, text := "=>", gap } :: tokens) :=
  .sign ['>'] (by decide) (by simp) (by simp) rfl later

/-- A point in front of a name. -/
theorem Spells.point (gap : List Char) {rest : List Char} {tokens : List Token}
    (stops : ∀ c ∈ rest.head?, isNamePart c = true ∧ c.isDigit = false)
    (later : Spells [] rest tokens) :
    Spells gap ('.' :: rest) ({ kind := .sign, text := ".", gap } :: tokens) := by
  refine .sign [] (by decide) (fun _ c first => (stops c first).2) (by simp) ?_ later
  cases rest with
  | nil => rfl
  | cons c rest =>
    have other : '.' ≠ c := by
      rintro rfl
      exact absurd (stops '.' rfl).1 (by decide)
    simp [signText?, signs, beginsWith, dropLiteral?, other]

end SchemaAtlas.Script
