import SchemaAtlas.Proofs.Text.Blocks

/-!
Words of a text as a whole. What begins with a word is looked for at the front of that word only, so
that a search passes over it in one step.
-/

set_option autoImplicit false

namespace SchemaAtlas.Text

/-- A word at a place of a text, if all of it stands there; the text behind it. -/
def wholeWord? (word : List Char) (before : Option Char) (cs : List Char) : Option (List Char) := do
  guard !(before.any isWord)
  let (run, rest) ← takeWord? cs
  guard (run = word)
  return rest

/-- A keyword that does not begin the header of a block. -/
def bareWord? (keyword : List Char) (before : Option Char) (cs : List Char) : Option (List Char) :=
  if (blockHeader? keyword before cs).isSome then none else wholeWord? keyword before cs

/-- What stands behind the keyword of a header: the name, and the text behind the brace. -/
def headed? (cs : List Char) : Option (List Char × List Char) := do
  let cs ← dropBlanks? cs
  let (name, cs) ← takeWord? cs
  let cs ← dropLiteral? ['{'] (trimLeft cs)
  return (name, cs)

section Words

variable {word : List Char} {before : Option Char}

theorem wholeWord?_outside {c : Char} (outside : isWord c = false) (cs : List Char) :
    wholeWord? word before (c :: cs) = none := by
  have none : takeWord? (c :: cs) = none := takeRun?_eq_none (by simpa using outside)
  simp [wholeWord?, none]

theorem wholeWord?_within {c : Char} (follows : isWord c = true) (cs : List Char) :
    wholeWord? word (some c) cs = none := by
  simp [wholeWord?, follows, failure]

theorem wholeWord?_run {run rest : List Char} (text : IsWordText run)
    (stops : ∀ c ∈ rest.head?, isWord c = false) (begins : before.any isWord = false) :
    wholeWord? word before (run ++ rest) = if run = word then some rest else none := by
  simp only [wholeWord?, begins, takeWord?_append text stops]
  by_cases same : run = word <;> simp [same, guard, failure]

theorem findMatch_wholeWord? {other : Option Char} (begins : before.any isWord = false)
    (begins' : other.any isWord = false) (cs : List Char) :
    findMatch (wholeWord? word) before cs = findMatch (wholeWord? word) other cs := by
  have same (ds : List Char) : wholeWord? word before ds = wholeWord? word other ds := by
    simp only [wholeWord?, begins, begins']
  cases cs with
  | nil => exact same []
  | cons c cs => rw [findMatch, findMatch, same]

end Words

section Headers

variable {keyword : List Char} {before : Option Char}

theorem blockHeader?_keyword (free : IsFree before) (rest : List Char) :
    blockHeader? keyword before (keyword ++ rest) = headed? rest := by
  rw [blockHeader?_free free, blockHeader?, dropLiteral?_append]
  rfl

theorem blockHeader?_bound (bound : ¬ IsFree before) (cs : List Char) :
    blockHeader? keyword before cs = none := by
  rw [Option.eq_none_iff_forall_ne_some]
  exact fun found header => bound (isFree_of_blockHeader? header)

theorem blockHeader?_nil : blockHeader? keyword before [] = none :=
  blockHeader?_eq_none before (Headerless.nil [] List.nil_suffix)

theorem blockHeader?_other {run rest : List Char} (word : IsWordText keyword)
    (text : IsWordText run) (stops : ∀ c ∈ rest.head?, isWord c = false) (other : run ≠ keyword) :
    blockHeader? keyword before (run ++ rest) = none := by
  rw [Option.eq_none_iff_forall_ne_some]
  intro found header
  exact other (run_of_blockHeader? word text.2 stops header)

theorem blank_of_headed? {gap : Char} {cs : List Char}
    (headed : (headed? (gap :: cs)).isSome = true) : isBlank gap = true := by
  by_contra solid
  rw [Bool.not_eq_true] at solid
  have none : dropBlanks? (gap :: cs) = none := dropBlanks?_eq_none (by simpa using solid)
  simp [headed?, none] at headed

theorem outside_of_headed? {gap : Char} {cs : List Char}
    (headed : (headed? (gap :: cs)).isSome = true) : isWord gap = false :=
  (isFree_of_isBlank (blank_of_headed? headed) gap rfl).1

theorem dropLiteral?_of_headed? {cs : List Char} (headed : (headed? cs).isSome = true) :
    dropLiteral? ['{'] (trimLeft cs) = none := by
  cases cs with
  | nil => cases headed
  | cons gap cs =>
    have blank := blank_of_headed? headed
    have gone : trimLeft (gap :: cs) = trimLeft cs := by simp [trimLeft, blank]
    rw [headed?, dropBlanks?_cons blank] at headed
    rw [gone]
    -- The name stands where the brace would have to be.
    cases behind : trimLeft cs with
    | nil => rfl
    | cons c cs =>
      by_cases brace : c = '{'
      · subst brace
        have none : takeWord? ('{' :: cs) = none := takeRun?_eq_none (by simp; decide)
        simp [behind, none] at headed
      · simp [dropLiteral?, Ne.symm brace]

end Headers

/-- A matcher that looks for something that begins with a word, at the front of that word. -/
structure Anchored {α : Type} (here : Option Char → List Char → Option α) : Prop where
  outside {before : Option Char} {c : Char} (outside : isWord c = false) (cs : List Char) :
    here before (c :: cs) = none
  within {c : Char} (inside : isWord c = true) (cs : List Char) : here (some c) cs = none

theorem anchored_wholeWord? (word : List Char) : Anchored (wholeWord? word) where
  outside := wholeWord?_outside
  within := wholeWord?_within

theorem anchored_blockHeader? {keyword : List Char} (word : IsWordText keyword) :
    Anchored (blockHeader? keyword) where
  outside outside cs := blockHeader?_outside word outside _ cs
  within inside cs := blockHeader?_bound (fun free => by simp [(free _ rfl).1] at inside) cs

theorem anchored_bareWord? (keyword : List Char) : Anchored (bareWord? keyword) where
  outside outside cs := by simp [bareWord?, wholeWord?_outside outside]
  within inside cs := by simp [bareWord?, wholeWord?_within inside]

namespace Anchored

variable {run rest : List Char} {before : Option Char}

/-- Where nothing is found at the front of a word, a search steps through it from one character to the
next. -/
theorem pass {α : Type} {here : Option Char → List Char → Option α} (anchored : Anchored here)
    (text : IsWordText run) (front : here before (run ++ rest) = none)
    {P : Option Char → List Char → Prop}
    (step : ∀ before c tail, isWord c = true → here before (c :: (tail ++ rest)) = none →
      P (some c) tail → P before (c :: tail))
    (last : P run.getLast? []) : P before run := by
  obtain ⟨held, inside⟩ := text
  induction run generalizing before with
  | nil => exact absurd rfl held
  | cons c run ih =>
    refine step before c run (inside c (.head _)) front ?_
    -- From the second character on nothing is found, since a word character stands in front.
    cases run with
    | nil => exact last
    | cons d run =>
      exact ih (anchored.within (inside c (.head _)) _) last (List.cons_ne_nil d run)
        fun e member => inside e (.tail _ member)

theorem findMatch_run {α : Type} {here : Option Char → List Char → Option α}
    (anchored : Anchored here) (text : IsWordText run) (front : here before (run ++ rest) = none) :
    findMatch here before (run ++ rest) = findMatch here run.getLast? rest := by
  refine anchored.pass text front
    (P := fun before tail => findMatch here before (tail ++ rest) = findMatch here run.getLast? rest)
    (fun before c tail _ none later => ?_) rfl
  rw [List.cons_append, findMatch, none]
  exact later

theorem matchesFrom_run {α : Type} {here : Option Char → List Char → Option (α × List Char)}
    (anchored : Anchored here) (text : IsWordText run) (front : here before (run ++ rest) = none) :
    matchesFrom here 0 before (run ++ rest) = matchesFrom here 0 run.getLast? rest := by
  refine anchored.pass text front
    (P := fun before tail => matchesFrom here 0 before (tail ++ rest) =
      matchesFrom here 0 run.getLast? rest)
    (fun before c tail _ none later => ?_) rfl
  rw [List.cons_append, matchesFrom_cons none, later]

theorem replaceFrom_run {replacement : List Char}
    {here : Option Char → List Char → Option (List Char)} (anchored : Anchored here)
    (text : IsWordText run) (front : here before (run ++ rest) = none) :
    replaceFrom replacement here 0 before (run ++ rest) =
      run ++ replaceFrom replacement here 0 run.getLast? rest := by
  refine anchored.pass text front
    (P := fun before tail => replaceFrom replacement here 0 before (tail ++ rest) =
      tail ++ replaceFrom replacement here 0 run.getLast? rest)
    (fun before c tail _ none later => ?_) rfl
  rw [List.cons_append, replaceFrom_cons none, later, List.cons_append]

theorem blocksFrom_run {keyword : List Char} (anchored : Anchored (blockHeader? keyword))
    (text : IsWordText run) (front : blockHeader? keyword before (run ++ rest) = none)
    (line : Nat) :
    blocksFrom keyword 0 line before (run ++ rest) =
      blocksFrom keyword 0 line run.getLast? rest := by
  refine anchored.pass text front
    (P := fun before tail => blocksFrom keyword 0 line before (tail ++ rest) =
      blocksFrom keyword 0 line run.getLast? rest)
    (fun before c tail inside none later => ?_) rfl
  have stays : [c].count '\n' = 0 := by
    refine List.count_eq_zero.mpr fun member => ?_
    rw [← List.mem_singleton.mp member] at inside
    cases inside
  rw [List.cons_append, blocksFrom_cons _ _ _ _ _ none, stays, Nat.add_zero, later]

end Anchored

theorem exists_word {c : Char} {cs : List Char} (inside : isWord c = true) :
    ∃ run rest, c :: cs = run ++ rest ∧ IsWordText run ∧ ∀ d ∈ rest.head?, isWord d = false := by
  refine ⟨(c :: cs).takeWhile isWord, (c :: cs).dropWhile isWord,
    List.takeWhile_append_dropWhile.symm, ⟨by simp [inside], ?_⟩, ?_⟩
  · exact List.all_eq_true.mp List.all_takeWhile
  · intro d first
    have stop := List.head?_dropWhile_not isWord (c :: cs)
    rw [Option.mem_def] at first
    rw [first] at stop
    simpa using stop

theorem eq_of_words {run other rest behind : List Char} (inside : ∀ c ∈ run, isWord c = true)
    (inside' : ∀ c ∈ other, isWord c = true) (stops : ∀ c ∈ rest.head?, isWord c = false)
    (stops' : ∀ c ∈ behind.head?, isWord c = false) (same : run ++ rest = other ++ behind) :
    run = other ∧ rest = behind := by
  -- Each word is as long as the run of word characters at the front of the text.
  have runs := congrArg (List.span isWord) same
  rw [span_append inside stops, span_append inside' stops'] at runs
  exact Prod.mk.inj runs

theorem isSome_takeWord? (cs : List Char) : (takeWord? cs).isSome = cs.head?.any isWord := by
  cases cs with
  | nil => rfl
  | cons c cs =>
    by_cases inside : isWord c = true
    · obtain ⟨run, rest, whole, text, stops⟩ := exists_word inside
      rw [whole, takeWord?_append text stops, ← whole]
      simp [inside]
    · have outside : ∀ d ∈ (c :: cs).head?, isWord d = false := by simpa using inside
      rw [takeWord?, takeRun?_eq_none outside]
      simpa using inside

theorem headed_of_bareWord? {keyword rest : List Char} {before : Option Char}
    (found : wholeWord? keyword before (keyword ++ rest) = some rest)
    (heads : bareWord? keyword before (keyword ++ rest) = none) :
    IsFree before ∧ (headed? rest).isSome = true := by
  have header : (blockHeader? keyword before (keyword ++ rest)).isSome = true := by
    by_contra other
    simp [bareWord?, found, other] at heads
  obtain ⟨found, first⟩ := Option.isSome_iff_exists.mp header
  have free : IsFree before := isFree_of_blockHeader? first
  rw [blockHeader?_keyword free] at header
  exact ⟨free, header⟩

end SchemaAtlas.Text
