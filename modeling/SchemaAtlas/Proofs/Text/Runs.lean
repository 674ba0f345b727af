import Mathlib.Data.List.Infix
import Mathlib.Data.List.TakeDrop
import SchemaAtlas.Text.Pattern

/-!
Runs of characters at the front of a text that goes on with something else: literals, words and
blanks, and what a trimmed text looks like.
-/

set_option autoImplicit false

namespace SchemaAtlas.Text

/-- What holds of a text of two parts that it holds of, holds of a text of many. -/
theorem closed_flatMap {P : List Char → Prop} (nil : P [])
    (append : ∀ {as bs : List Char}, P as → P bs → P (as ++ bs)) {α : Type} {f : α → List Char}
    {items : List α} (each : ∀ item ∈ items, P (f item)) : P (items.flatMap f) := by
  induction items with
  | nil => exact nil
  | cons item items ih =>
    rw [List.flatMap_cons]
    exact append (each item (.head _)) (ih fun other member => each other (.tail _ member))

/-- A text that does not end with a blank. -/
def EndsSolid (cs : List Char) : Prop := ∀ c ∈ cs.getLast?, isBlank c = false

theorem EndsSolid.append {as bs : List Char} (first : EndsSolid as) (second : EndsSolid bs) :
    EndsSolid (as ++ bs) := by
  intro c last
  rw [List.getLast?_append] at last
  cases held : bs.getLast? with
  | none => exact first c (by simpa [held] using last)
  | some d => exact second c (by simpa [held] using last)

/-- The blanks outside ASCII. -/
def wideBlanks : List Nat :=
  [0x85, 0xA0, 0x1680, 0x2000, 0x2001, 0x2002, 0x2003, 0x2004, 0x2005, 0x2006, 0x2007, 0x2008,
    0x2009, 0x200A, 0x2028, 0x2029, 0x202F, 0x205F, 0x3000]

theorem mem_wideBlanks {c : Char} (blank : isBlank c = true) (wide : ¬ c.toNat < 128) :
    c.toNat ∈ wideBlanks := by
  simp only [isBlank, wide, if_false, Bool.or_eq_true, beq_iff_eq, Bool.and_eq_true,
    decide_eq_true_eq] at blank
  simp only [wideBlanks, List.mem_cons, List.not_mem_nil, or_false]
  omega

theorem wideBlanks_no_words : ∀ n ∈ wideBlanks, inRanges n wordRanges = false := by
  decide +kernel

/-- No character is both a blank and part of a word. -/
theorem isBlank_of_isWord {c : Char} (word : isWord c = true) : isBlank c = false := by
  by_contra blank
  rw [Bool.not_eq_false] at blank
  by_cases small : c.toNat < 128
  next =>
    simp only [isWord, small, if_true, Bool.or_eq_true, Bool.and_eq_true, decide_eq_true_eq,
      beq_iff_eq] at word
    simp only [isBlank, small, if_true, Bool.or_eq_true, Bool.and_eq_true,
      decide_eq_true_eq] at blank
    omega
  next =>
    have none := wideBlanks_no_words _ (mem_wideBlanks blank small)
    simp only [isWord, small, if_false] at word
    rw [word] at none
    cases none

theorem eq_append_of_dropLiteral? {literal cs rest : List Char}
    (dropped : dropLiteral? literal cs = some rest) : cs = literal ++ rest := by
  induction literal generalizing cs with
  | nil => cases dropped; rfl
  | cons x literal ih =>
    cases cs with
    | nil => cases dropped
    | cons c cs =>
      rw [dropLiteral?] at dropped
      split at dropped
      next same => rw [same, ih dropped, List.cons_append]
      next => cases dropped

theorem beginsWith_iff {literal cs : List Char} : beginsWith literal cs = true ↔ literal <+: cs := by
  rw [beginsWith, Option.isSome_iff_exists]
  constructor
  · rintro ⟨rest, dropped⟩
    exact ⟨rest, (eq_append_of_dropLiteral? dropped).symm⟩
  · rintro ⟨rest, rfl⟩
    exact ⟨rest, dropLiteral?_append literal rest⟩

theorem endsWith_iff {literal cs : List Char} : endsWith literal cs = true ↔ literal <:+ cs := by
  rw [endsWith, beginsWith_iff, List.reverse_prefix]

theorem IsWordText.not_mem {cs : List Char} (word : IsWordText cs) {c : Char}
    (outside : isWord c = false) : c ∉ cs := fun member => by
  rw [word.2 c member] at outside
  cases outside

theorem IsWordText.solid {cs : List Char} (word : IsWordText cs) : ∀ c ∈ cs, isBlank c = false :=
  fun c member => isBlank_of_isWord (word.2 c member)

theorem isBlank_spaces (count : Nat) : ∀ c ∈ List.replicate count ' ', isBlank c = true :=
  fun _ member => (List.eq_of_mem_replicate member) ▸ rfl

theorem takeWhile_ne {c : Char} {front : List Char} (absent : c ∉ front) (behind : List Char) :
    (front ++ c :: behind).takeWhile (· ≠ c) = front := by
  have inside : ∀ d ∈ front, decide (d ≠ c) = true := fun d member =>
    decide_eq_true fun same => absent (same ▸ member)
  rw [List.takeWhile_append_of_pos inside, List.takeWhile_cons_of_neg (by simp), List.append_nil]

theorem dropWhile_ne {c : Char} {front : List Char} (absent : c ∉ front) (behind : List Char) :
    (front ++ c :: behind).dropWhile (· ≠ c) = c :: behind := by
  have inside : ∀ d ∈ front, decide (d ≠ c) = true := fun d member =>
    decide_eq_true fun same => absent (same ▸ member)
  rw [List.dropWhile_append_of_pos inside, List.dropWhile_cons_of_neg (by simp)]

/-- Texts that are cut at the first `c` agree when both their parts do. -/
theorem append_cons_inj {c : Char} {front front' behind behind' : List Char} (absent : c ∉ front)
    (absent' : c ∉ front') :
    front ++ c :: behind = front' ++ c :: behind' ↔ front = front' ∧ behind = behind' := by
  constructor
  · intro same
    have fronts := congrArg (List.takeWhile (· ≠ c)) same
    have behinds := congrArg (List.dropWhile (· ≠ c)) same
    rw [takeWhile_ne absent, takeWhile_ne absent'] at fronts
    rw [dropWhile_ne absent, dropWhile_ne absent'] at behinds
    exact ⟨fronts, (List.cons.inj behinds).2⟩
  · rintro ⟨rfl, rfl⟩
    rfl

theorem append_cons_inj_last {c : Char} {front front' behind behind' : List Char}
    (absent : c ∉ behind) (absent' : c ∉ behind') :
    front ++ c :: behind = front' ++ c :: behind' ↔ front = front' ∧ behind = behind' := by
  rw [← List.reverse_inj]
  simp only [List.reverse_append, List.reverse_cons, List.append_assoc, List.singleton_append]
  rw [append_cons_inj (by simpa using absent) (by simpa using absent'), List.reverse_inj,
    List.reverse_inj, and_comm]

theorem span_append {members : Char → Bool} {run rest : List Char}
    (inside : ∀ c ∈ run, members c = true) (stops : ∀ c ∈ rest.head?, members c = false) :
    (run ++ rest).span members = (run, rest) := by
  rw [List.span_eq_takeWhile_dropWhile, List.takeWhile_append_of_pos inside,
    List.dropWhile_append_of_pos inside]
  cases rest with
  | nil => simp
  | cons c rest => simp [stops c rfl]

theorem takeRun?_append {members : Char → Bool} {run rest : List Char} (some : run ≠ [])
    (inside : ∀ c ∈ run, members c = true) (stops : ∀ c ∈ rest.head?, members c = false) :
    takeRun? members (run ++ rest) = .some (run, rest) := by
  rw [takeRun?, span_append inside stops]
  split
  next empty => exact absurd (Prod.mk.inj empty).1 some
  next same => cases same; rfl

theorem takeRun?_eq_none {members : Char → Bool} {cs : List Char}
    (stops : ∀ c ∈ cs.head?, members c = false) : takeRun? members cs = none := by
  rw [takeRun?, ← List.nil_append cs, span_append (by simp) stops]

theorem takeWord?_append {word rest : List Char} (isWordText : IsWordText word)
    (stops : ∀ c ∈ rest.head?, isWord c = false) : takeWord? (word ++ rest) = some (word, rest) :=
  takeRun?_append isWordText.1 isWordText.2 stops

theorem trimLeft_eq_self {cs : List Char} (solid : ∀ c ∈ cs.head?, isBlank c = false) :
    trimLeft cs = cs := by
  cases cs with
  | nil => rfl
  | cons c cs => simp [trimLeft, solid c rfl]

theorem trimLeft_append {gap cs : List Char} (blank : ∀ c ∈ gap, isBlank c = true) :
    trimLeft (gap ++ cs) = trimLeft cs :=
  List.dropWhile_append_of_pos blank

theorem exists_trimLeft (cs : List Char) :
    ∃ gap, cs = gap ++ trimLeft cs ∧ ∀ c ∈ gap, isBlank c = true :=
  ⟨cs.takeWhile isBlank, List.takeWhile_append_dropWhile.symm,
    List.all_eq_true.mp List.all_takeWhile⟩

theorem exists_trimRight (cs : List Char) :
    ∃ gap, cs = trimRight cs ++ gap ∧ ∀ c ∈ gap, isBlank c = true := by
  obtain ⟨gap, whole, blank⟩ := exists_trimLeft cs.reverse
  refine ⟨gap.reverse, ?_, by simpa using blank⟩
  rw [trimRight, ← List.reverse_append]
  exact List.reverse_eq_iff.mp whole

theorem exists_trim (cs : List Char) : ∃ front back, cs = front ++ (trim cs ++ back) ∧
    (∀ c ∈ front, isBlank c = true) ∧ ∀ c ∈ back, isBlank c = true := by
  obtain ⟨front, left, blank⟩ := exists_trimLeft cs
  obtain ⟨back, right, blank'⟩ := exists_trimRight (trimLeft cs)
  exact ⟨front, back, by rwa [trim, ← right], blank, blank'⟩

theorem isTrimmed_trim (cs : List Char) : IsTrimmed (trim cs) := by
  have solid (cs : List Char) (c : Char) (first : (trimLeft cs).head? = some c) :
      isBlank c = false := by
    have stops := List.head?_dropWhile_not isBlank cs
    rw [show cs.dropWhile isBlank = trimLeft cs from rfl, first] at stops
    exact stops
  constructor
  next =>
    intro c first
    obtain ⟨gap, right, -⟩ := exists_trimRight (trimLeft cs)
    apply solid cs c
    rw [right, List.head?_append, show trimRight (trimLeft cs) = trim cs from rfl, first]
    rfl
  next =>
    intro c last
    rw [trim, trimRight, List.getLast?_reverse] at last
    exact solid (trimLeft cs).reverse c last

theorem eq_append_of_dropBlanks? {cs rest : List Char} (dropped : dropBlanks? cs = some rest) :
    ∃ gap, gap ≠ [] ∧ (∀ c ∈ gap, isBlank c = true) ∧ cs = gap ++ rest := by
  cases cs with
  | nil => cases dropped
  | cons c cs =>
    rw [dropBlanks?] at dropped
    split at dropped
    next blank =>
      cases dropped
      obtain ⟨gap, split, blanks⟩ := exists_trimLeft cs
      refine ⟨c :: gap, List.cons_ne_nil _ _, ?_, congrArg (c :: ·) split⟩
      simpa using ⟨blank, blanks⟩
    next => cases dropped

theorem dropBlanks?_cons {c : Char} {cs : List Char} (blank : isBlank c = true) :
    dropBlanks? (c :: cs) = some (trimLeft cs) := by
  rw [dropBlanks?, if_pos blank]

theorem dropBlanks?_gap {gap rest : List Char} (held : gap ≠ [])
    (blank : ∀ c ∈ gap, isBlank c = true) (solid : ∀ c ∈ rest.head?, isBlank c = false) :
    dropBlanks? (gap ++ rest) = some rest := by
  cases gap with
  | nil => exact absurd rfl held
  | cons c gap =>
    rw [List.cons_append, dropBlanks?_cons (blank c (.head _)),
      trimLeft_append fun d member => blank d (.tail _ member), trimLeft_eq_self solid]

theorem isBlank_head?_word {word : List Char} (isWordText : IsWordText word) (rest : List Char) :
    ∀ c ∈ (word ++ rest).head?, isBlank c = false := by
  intro c first
  rw [List.head?_append_of_ne_nil _ isWordText.1] at first
  exact isBlank_of_isWord (isWordText.2 c (List.mem_of_head? first))

theorem dropBlanks?_word {word : List Char} (isWordText : IsWordText word) (rest : List Char) :
    dropBlanks? (' ' :: (word ++ rest)) = some (word ++ rest) :=
  dropBlanks?_gap (List.cons_ne_nil ' ' []) (by decide) (isBlank_head?_word isWordText rest)

theorem dropBlanks?_eq_none {cs : List Char} (solid : ∀ c ∈ cs.head?, isBlank c = false) :
    dropBlanks? cs = none := by
  cases cs with
  | nil => rfl
  | cons c cs => simp [dropBlanks?, solid c rfl]

theorem trimRight_eq_self {cs : List Char} (solid : ∀ c ∈ cs.getLast?, isBlank c = false) :
    trimRight cs = cs := by
  have back : trimLeft cs.reverse = cs.reverse :=
    trimLeft_eq_self fun c last => solid c (by rwa [List.head?_reverse] at last)
  rw [trimRight, show cs.reverse.dropWhile isBlank = cs.reverse from back, List.reverse_reverse]

theorem trim_eq_self {cs : List Char} (trimmed : IsTrimmed cs) : trim cs = cs := by
  rw [trim, trimLeft_eq_self trimmed.1, trimRight_eq_self trimmed.2]

theorem trim_append {gap cs : List Char} (blank : ∀ c ∈ gap, isBlank c = true) :
    trim (gap ++ cs) = trim cs := by
  rw [trim, trimLeft_append blank, trim]

theorem trimRight_append {gap cs : List Char} (blank : ∀ c ∈ gap, isBlank c = true) :
    trimRight (cs ++ gap) = trimRight cs := by
  rw [trimRight, trimRight, List.reverse_append, List.dropWhile_append_of_pos]
  simpa using blank

theorem trim_append_right {gap cs : List Char} (blank : ∀ c ∈ gap, isBlank c = true) :
    trim (cs ++ gap) = trim cs := by
  rw [trim, trim, trimLeft, trimLeft, List.dropWhile_append]
  split
  next empty =>
    have gone : trimLeft gap = [] := by
      rw [← List.append_nil gap, trimLeft_append blank]
      rfl
    rw [List.isEmpty_iff.mp empty, show gap.dropWhile isBlank = [] from gone]
  next => exact trimRight_append blank

/-- A trimmed text in front stays as it is. -/
theorem trim_front {front : List Char} (trimmed : IsTrimmed front) (held : front ≠ [])
    (rest : List Char) : trim (front ++ rest) = front ++ trimRight rest := by
  have first : trimLeft (front ++ rest) = front ++ rest :=
    trimLeft_eq_self fun c begins => trimmed.1 c (by rwa [List.head?_append_of_ne_nil _ held] at begins)
  have last : front.reverse.dropWhile isBlank = front.reverse :=
    trimLeft_eq_self fun c ends => trimmed.2 c (by rwa [List.head?_reverse] at ends)
  rw [trim, first, trimRight, trimRight, List.reverse_append, List.dropWhile_append, last]
  split
  next empty => simp [List.isEmpty_iff.mp empty]
  next => simp

theorem eq_append_of_takeRun? {members : Char → Bool} {cs run rest : List Char}
    (taken : takeRun? members cs = some (run, rest)) :
    cs = run ++ rest ∧ ∀ c ∈ run, members c = true := by
  rw [takeRun?, List.span_eq_takeWhile_dropWhile] at taken
  split at taken
  next => cases taken
  next parts =>
    cases taken
    obtain ⟨rfl, rfl⟩ := Prod.mk.inj parts
    exact ⟨List.takeWhile_append_dropWhile.symm, List.all_eq_true.mp List.all_takeWhile⟩

theorem ne_nil_of_takeRun? {members : Char → Bool} {cs run rest : List Char}
    (taken : takeRun? members cs = some (run, rest)) : run ≠ [] := by
  rintro rfl
  rw [takeRun?] at taken
  split at taken
  next => cases taken
  next other _ =>
    cases taken
    exact other rfl

theorem isWordText_of_takeWord? {cs word rest : List Char}
    (taken : takeWord? cs = some (word, rest)) : IsWordText word :=
  ⟨ne_nil_of_takeRun? taken, (eq_append_of_takeRun? taken).2⟩

theorem takeWord?_isSome_append {cs : List Char} (taken : (takeWord? cs).isSome = true)
    (rest : List Char) : (takeWord? (cs ++ rest)).isSome = true := by
  cases cs with
  | nil => cases taken
  | cons c cs =>
    by_cases word : isWord c = true
    · rw [takeWord?, takeRun?, List.span_eq_takeWhile_dropWhile, List.cons_append,
        List.takeWhile_cons_of_pos word]
      rfl
    · rw [takeWord?, takeRun?_eq_none] at taken
      · cases taken
      · rintro _ ⟨⟩
        simpa using word

theorem dropBlanks?_append {cs behind : List Char} (dropped : dropBlanks? cs = some behind)
    (held : behind ≠ []) (rest : List Char) : dropBlanks? (cs ++ rest) = some (behind ++ rest) := by
  cases cs with
  | nil => cases dropped
  | cons c cs =>
    rw [dropBlanks?] at dropped
    split at dropped
    next blank =>
      cases dropped
      have some : (cs.dropWhile isBlank).isEmpty = false := by simpa [trimLeft] using held
      rw [List.cons_append, dropBlanks?, if_pos blank, trimLeft, List.dropWhile_append, some]
      rfl
    next => cases dropped

theorem trim_subset (cs : List Char) : trim cs ⊆ cs := by
  intro c member
  rw [trim, trimRight, List.mem_reverse] at member
  have inside := (List.dropWhile_suffix isBlank).subset member
  exact (List.dropWhile_suffix isBlank).subset (List.mem_reverse.mp inside)

theorem words_gap {gap : List Char} (blank : ∀ c ∈ gap, isBlank c = true) (cs : List Char) :
    words (gap ++ cs) = words cs := by
  induction gap with
  | nil => rfl
  | cons c gap ih =>
    rw [List.cons_append, words_cons (blank c (.head _)), ih fun d member => blank d (.tail _ member)]

/-- A blank keeps the words before it apart from those behind it. -/
theorem words_break {c : Char} (blank : isBlank c = true) (as bs : List Char) :
    words (as ++ c :: bs) = words as ++ words bs := by
  have general (word : List Char) : wordsFrom word (as ++ c :: bs) = wordsFrom word as ++ words bs := by
    induction as generalizing word with
    | nil => cases word <;> simp [wordsFrom, blank, words]
    | cons a as ih =>
      rw [List.cons_append, wordsFrom, wordsFrom]
      split
      next => split <;> simp [ih]
      next => exact ih _
  exact general []

theorem words_word {cs : List Char} (word : IsWordText cs) : words cs = [cs] := by
  have apart := words_append word.1 word.solid (by decide : isBlank ' ' = true) []
  rwa [words_break (by decide), words_nil, List.append_nil] at apart

theorem words_ne_nil {c : Char} (solid : isBlank c = false) {cs : List Char} (member : c ∈ cs) :
    words cs ≠ [] := by
  have general (word : List Char) (held : word ≠ [] ∨ c ∈ cs) : wordsFrom word cs ≠ [] := by
    clear member
    induction cs generalizing word with
    | nil => simpa [wordsFrom] using held
    | cons d cs ih =>
      rw [wordsFrom]
      split
      next blank =>
        split
        next empty =>
          refine ih [] (.inr ?_)
          rcases held with some | member
          · exact absurd (List.isEmpty_iff.mp empty) some
          · rcases List.mem_cons.mp member with rfl | later
            · simp [solid] at blank
            · exact later
        next => simp
      next => exact ih _ (.inl (by simp))
  exact general [] (.inr member)

theorem splitAt_whole {sep : Char} {cs : List Char} (whole : sep ∉ cs) : splitAt sep cs = [cs] := by
  induction cs with
  | nil => rfl
  | cons c cs ih =>
    rw [List.mem_cons, not_or] at whole
    rw [splitAt, if_neg (Ne.symm whole.1), ih whole.2]

/-- The pieces of a text hold no separator, and nothing that the text does not hold. -/
theorem of_mem_splitAt {sep : Char} {cs piece : List Char} (member : piece ∈ splitAt sep cs) :
    sep ∉ piece ∧ piece ⊆ cs := by
  induction cs generalizing piece with
  | nil =>
    rw [List.mem_singleton.mp member]
    simp
  | cons c cs ih =>
    rw [splitAt] at member
    split at member
    next =>
      rcases List.mem_cons.mp member with rfl | later
      · simp
      · exact ⟨(ih later).1, List.subset_cons_of_subset c (ih later).2⟩
    next other =>
      split at member
      next =>
        rw [List.mem_singleton.mp member]
        simp [Ne.symm other]
      next first pieces split =>
        rw [split] at ih
        rcases List.mem_cons.mp member with rfl | later
        · obtain ⟨absent, within⟩ := ih (.head _)
          exact ⟨by simp [Ne.symm other, absent], List.cons_subset_cons c within⟩
        · obtain ⟨absent, within⟩ := ih (.tail _ later)
          exact ⟨absent, List.subset_cons_of_subset c within⟩

end SchemaAtlas.Text
