import SchemaAtlas.Proofs.Text.Headers
import SchemaAtlas.Proofs.Text.Matches

/-!
The blocks of a text read off from its front: a text without headers is passed over, and a block is
found with its name and its body.
-/

set_option autoImplicit false

namespace SchemaAtlas.Text

theorem nextLine_eq (line : Nat) (c : Char) :
    (if c = '\n' then line + 1 else line) = line + [c].count '\n' := by
  by_cases breaks : c = '\n' <;> simp [breaks]

theorem blocksFrom_cons (keyword : List Char) (line : Nat) (before : Option Char) (c : Char)
    (cs : List Char) (none : blockHeader? keyword before (c :: cs) = none) :
    blocksFrom keyword 0 line before (c :: cs) =
      blocksFrom keyword 0 (line + [c].count '\n') (some c) cs := by
  rw [blocksFrom, nextLine_eq]
  simp only [none]

theorem blocksFrom_skip (keyword skipped : List Char) (line : Nat) (before : Option Char) (c : Char)
    (rest : List Char) :
    blocksFrom keyword (skipped.length + 1) line before (skipped ++ c :: rest) =
      blocksFrom keyword 0 (line + (skipped ++ [c]).count '\n') (some c) rest := by
  induction skipped generalizing line before with
  | nil =>
    rw [List.nil_append, blocksFrom, nextLine_eq]
    rfl
  | cons d skipped ih =>
    rw [List.cons_append, blocksFrom, nextLine_eq]
    simp only [List.length_cons]
    rw [ih, Nat.add_assoc, ← List.count_append]
    rfl

/-- A block whose header begins a text, and the blocks behind it. -/
theorem blocksFrom_found {keyword cs name behind body rest : List Char} {before : Option Char}
    (header : blockHeader? keyword before cs = some (name, behind))
    (group : closeGroup? '{' behind = some (body, rest)) (line : Nat) :
    ∃ matched, cs = matched ++ '}' :: rest ∧ blocksFrom keyword 0 line before cs =
      let next := blocksFrom keyword 0 (line + (matched ++ ['}']).count '\n') (some '}') rest
      { blocks := { name := String.ofList name, body, line } :: next.blocks
        unclosed := next.unclosed } := by
  obtain ⟨head, split⟩ := suffix_of_blockHeader? header
  obtain ⟨closer, pair, inside⟩ := eq_append_of_closeGroup? group
  cases pair
  have whole : cs = (head ++ '{' :: body) ++ '}' :: rest := by
    rw [← split, show behind = _ from inside]
    simp
  refine ⟨head ++ '{' :: body, whole, ?_⟩
  cases held : head ++ '{' :: body with
  | nil => simp at held
  | cons c matched =>
    rw [held] at whole
    subst whole
    have within : (matched ++ '}' :: rest).length - rest.length = matched.length + 1 := by
      simp only [List.length_append, List.length_cons]
      omega
    rw [List.cons_append] at header ⊢
    rw [blocksFrom, nextLine_eq]
    simp only [header, group]
    rw [within, blocksFrom_skip, Nat.add_assoc, ← List.count_append]
    rfl

/-- A block at the front of a text that is never closed. -/
theorem blocksFrom_unclosed {keyword cs name behind : List Char} {before : Option Char}
    (header : blockHeader? keyword before cs = some (name, behind))
    (unclosed : closeGroup? '{' behind = none) (line : Nat) :
    blocksFrom keyword 0 line before cs = { unclosed := some { name := String.ofList name, line } } := by
  cases cs with
  | nil =>
    have suffix := suffix_of_blockHeader? header
    simp at suffix
  | cons c cs =>
    rw [blocksFrom]
    simp only [header, unclosed]

/-- Up to a character that has no place in a header, no block is found where no header begins. -/
theorem blocksFrom_quiet {keyword cs : List Char} (word : IsWordText keyword) {before : Option Char}
    (quiet : findMatch (blockHeader? keyword) before cs = none) {c : Char}
    (breaks : breaksHeader c = true) (line : Nat) (rest : List Char) :
    blocksFrom keyword 0 line before (cs ++ c :: rest) =
      blocksFrom keyword 0 (line + (cs ++ [c]).count '\n') (some c) rest := by
  induction cs generalizing line before with
  | nil =>
    have none : blockHeader? keyword before ([] ++ c :: rest) = none := by
      rw [blockHeader?_break rest word breaks, show blockHeader? keyword before [] = none from quiet,
        Option.map_none]
    exact blocksFrom_cons _ _ _ _ _ none
  | cons d cs ih =>
    obtain ⟨here, later⟩ := findMatch_cons_eq_none.mp quiet
    have none : blockHeader? keyword before (d :: cs ++ c :: rest) = none := by
      rw [blockHeader?_break rest word breaks, here, Option.map_none]
    rw [List.cons_append] at none ⊢
    rw [blocksFrom_cons _ _ _ _ _ none, ih later, Nat.add_assoc, ← List.count_append]
    rfl

section Quiet

variable {keyword : List Char}

theorem findMatch_free {before : Option Char} (free : IsFree before) (cs : List Char) :
    findMatch (blockHeader? keyword) before cs = findMatch (blockHeader? keyword) none cs := by
  cases cs with
  | nil => exact blockHeader?_free free []
  | cons c cs => rw [findMatch, findMatch, blockHeader?_free free]

theorem findMatch_outside (word : IsWordText keyword) {c : Char} (outside : isWord c = false)
    (before : Option Char) (cs : List Char) :
    findMatch (blockHeader? keyword) before (c :: cs) =
      findMatch (blockHeader? keyword) (some c) cs := by
  rw [findMatch, blockHeader?_outside word outside]

theorem findMatch_blank (word : IsWordText keyword) {gap : List Char}
    (blank : ∀ c ∈ gap, isBlank c = true) (cs : List Char) :
    findMatch (blockHeader? keyword) none (gap ++ cs) = findMatch (blockHeader? keyword) none cs := by
  induction gap with
  | nil => rfl
  | cons c gap ih =>
    have free := isFree_of_isBlank (blank c (.head _))
    rw [List.cons_append, findMatch_outside word (free c rfl).1, findMatch_free free,
      ih fun d member => blank d (.tail _ member)]

/-- Behind a character of a word no header begins before the word ends. -/
theorem findMatch_within (word : IsWordText keyword) {before : Char} (follows : isWord before = true)
    {run : List Char} (inside : ∀ c ∈ run, isWord c = true) {c : Char} (outside : isWord c = false)
    {rest : List Char} (later : findMatch (blockHeader? keyword) none (c :: rest) = none) :
    findMatch (blockHeader? keyword) (some before) (run ++ c :: rest) = none := by
  induction run generalizing before with
  | nil =>
    rw [findMatch_outside word outside] at later
    rw [List.nil_append, findMatch_outside word outside, later]
  | cons d run ih =>
    have here : blockHeader? keyword (some before) (d :: (run ++ c :: rest)) = none := by
      simp [blockHeader?, follows, failure]
    refine findMatch_cons_eq_none.mpr ⟨here, ?_⟩
    exact ih (inside d (.head _)) fun e member => inside e (.tail _ member)

/-- A word holds no header, unless it is the keyword and a header goes on from there. -/
theorem findMatch_word (word : IsWordText keyword) {run : List Char}
    (inside : ∀ c ∈ run, isWord c = true) {c : Char} (outside : isWord c = false) {rest : List Char}
    (front : run = keyword → blockHeader? keyword none (run ++ c :: rest) = none)
    (later : findMatch (blockHeader? keyword) none (c :: rest) = none) :
    findMatch (blockHeader? keyword) none (run ++ c :: rest) = none := by
  have here : blockHeader? keyword none (run ++ c :: rest) = none := by
    rw [Option.eq_none_iff_forall_ne_some]
    intro found header
    have whole := run_of_blockHeader? word inside (by simpa using outside) header
    rw [front whole] at header
    cases header
  cases run with
  | nil => exact later
  | cons d run =>
    refine findMatch_cons_eq_none.mpr ⟨here, ?_⟩
    exact findMatch_within word (inside d (.head _)) (fun e member => inside e (.tail _ member))
      outside later

/-- The header of a block of another keyword, whose body holds no header. -/
theorem findMatch_header (word : IsWordText keyword) {other gap name space body : List Char}
    (inside : ∀ c ∈ other, isWord c = true) (differs : other ≠ keyword) (held : gap ≠ [])
    (blank : ∀ c ∈ gap, isBlank c = true) (named : IsWordText name)
    (spaced : ∀ c ∈ space, isBlank c = true)
    (quiet : findMatch (blockHeader? keyword) none body = none) :
    findMatch (blockHeader? keyword) none
      (other ++ (gap ++ (name ++ (space ++ '{' :: body)))) = none := by
  have brace : findMatch (blockHeader? keyword) none (space ++ '{' :: body) = none := by
    rw [findMatch_blank word spaced, findMatch_outside word (by decide),
      findMatch_free (isFree_brace (.inl rfl)), quiet]
  have behind : findMatch (blockHeader? keyword) none (name ++ (space ++ '{' :: body)) = none := by
    have nameless (same : name = keyword) :
        blockHeader? keyword none (name ++ (space ++ '{' :: body)) = none := by
      rw [same]
      exact blockHeader?_nameless keyword spaced none body
    cases space with
    | nil => exact findMatch_word word named.2 (by decide) nameless brace
    | cons c space =>
      exact findMatch_word word named.2 (isFree_of_isBlank (spaced c (.head _)) c rfl).1 nameless
        brace
  rw [← findMatch_blank word blank] at behind
  cases gap with
  | nil => exact absurd rfl held
  | cons c gap =>
    exact findMatch_word word inside (isFree_of_isBlank (blank c (.head _)) c rfl).1
      (fun same => absurd same differs) behind

end Quiet

theorem Headerless.findMatch {keyword cs : List Char} (headerless : Headerless keyword cs)
    (before : Option Char) : findMatch (blockHeader? keyword) before cs = none := by
  induction cs generalizing before with
  | nil => exact blockHeader?_eq_none before (headerless [] List.nil_suffix)
  | cons c cs ih =>
    have here := blockHeader?_eq_none before (headerless _ (List.suffix_refl _))
    have later : Headerless keyword cs := fun behind suffix =>
      headerless behind (suffix.trans (List.suffix_cons c cs))
    exact findMatch_cons_eq_none.mpr ⟨here, ih later _⟩

/-- A text without headers holds no blocks. -/
theorem blocksFrom_headerless {keyword cs : List Char} (word : IsWordText keyword)
    (headerless : Headerless keyword cs) {c : Char} (breaks : breaksHeader c = true) (line : Nat)
    (before : Option Char) (rest : List Char) :
    blocksFrom keyword 0 line before (cs ++ c :: rest) =
      blocksFrom keyword 0 (line + (cs ++ [c]).count '\n') (some c) rest :=
  blocksFrom_quiet word (headerless.findMatch before) breaks line rest

/-- A block at the front of a text, and the blocks behind it. -/
theorem blocksFrom_block (keyword : List Char) {name body : List Char} (named : IsWordText name)
    (nested : IsNested body) {before : Option Char} (free : IsFree before) (line : Nat)
    (rest : List Char) : ∃ next, blocksFrom keyword 0 line before
        (keyword ++ ' ' :: (name ++ ' ' :: '{' :: (body ++ '}' :: rest))) =
      { blocks := { name := String.ofList name, body, line } ::
          (blocksFrom keyword 0 next (some '}') rest).blocks
        unclosed := (blocksFrom keyword 0 next (some '}') rest).unclosed } := by
  have one : ∀ c ∈ [' '], isBlank c = true := by decide
  have header := blockHeader?_header keyword (List.cons_ne_nil ' ' []) one named one free
    (body ++ '}' :: rest)
  obtain ⟨matched, -, found⟩ :=
    blocksFrom_found header (nested.closeGroup?_append rfl rest) line
  exact ⟨_, found⟩

end SchemaAtlas.Text
