import Mathlib.Data.Option.Basic
import SchemaAtlas.Proofs.Text.Closed
import SchemaAtlas.Proofs.Text.Feeds
import SchemaAtlas.Proofs.Text.Words

/-!
Texts in which one word stands in the place of another one. Where that word is used for the headers
of blocks only, headers and groups are found alike in both texts.
-/

set_option autoImplicit false

namespace SchemaAtlas.Text

/-- The text with one word in the place of another one. -/
def renameWord (old new cs : List Char) : List Char := replaceMatches new (wholeWord? old) cs

/-- A text in which a keyword can be replaced: it begins headers only, and the new word is free. -/
structure Renamable (old new cs : List Char) : Prop where
  heads : hasMatch (bareWord? old) cs = false
  unused : hasMatch (wholeWord? new) cs = false

/-- Two texts of the same words and characters, except that the second one has a new word in the
place of an old one. The old word begins headers only, the new one does not occur in the first text.
-/
inductive Renamed (old new : List Char) : Option Char → List Char → List Char → Prop
  | nil (before : Option Char) : Renamed old new before [] []
  | char {before : Option Char} {c : Char} {as bs : List Char} (outside : isWord c = false)
    (rest : Renamed old new (some c) as bs) : Renamed old new before (c :: as) (c :: bs)
  | run {before : Option Char} {run as bs : List Char} (text : IsWordText run) (other : run ≠ old)
    (unused : run ≠ new) (stops : ∀ c ∈ as.head?, isWord c = false)
    (rest : Renamed old new run.getLast? as bs) : Renamed old new before (run ++ as) (run ++ bs)
  | word {before : Option Char} {gap : Char} {as bs : List Char} (free : IsFree before)
    (differs : old ≠ new) (headed : (headed? (gap :: as)).isSome = true)
    (rest : Renamed old new (some gap) as bs) :
    Renamed old new before (old ++ gap :: as) (new ++ gap :: bs)

/-- Nothing is found in both texts, or the same up to a mark, with such texts behind it. -/
abbrev SameUpTo {α : Type} (old new : List Char) (mark : Char) :
    Option (α × List Char) → Option (α × List Char) → Prop :=
  Option.Rel fun found other => found.1 = other.1 ∧ Renamed old new (some mark) found.2 other.2

/-- A keyword, and the word for it in the second text. -/
inductive Becomes (old new : List Char) : List Char → List Char → Prop
  | renamed : Becomes old new old new
  | kept {keyword : List Char} (other : keyword ≠ old) (unused : keyword ≠ new) :
    Becomes old new keyword keyword

theorem Becomes.isWordText {old new keyword keyword' : List Char}
    (becomes : Becomes old new keyword keyword') (word' : IsWordText new)
    (text : IsWordText keyword) : IsWordText keyword' := by
  cases becomes with
  | renamed => exact word'
  | kept => exact text

/-- A text, and what becomes of it where a keyword is replaced that begins headers only. -/
theorem renamed_replaceFrom {old new cs : List Char} {before : Option Char}
    (starts : before.any isWord = true → ∀ c ∈ cs.head?, isWord c = false)
    (heads : findMatch (bareWord? old) before cs = none)
    (unused : findMatch (wholeWord? new) before cs = none) :
    Renamed old new before cs (replaceFrom new (wholeWord? old) 0 before cs) := by
  -- The induction is on the length, since a word is passed over as a whole.
  generalize size : cs.length = n
  induction n using Nat.strong_induction_on generalizing cs before with
  | _ n ih =>
    have later {ds : List Char} (shorter : ds.length < n) := @ih ds.length shorter ds
    cases cs with
    | nil => exact .nil before
    | cons c cs =>
      by_cases inside : isWord c = true
      · obtain ⟨run, rest, whole, text, stops⟩ := exists_word inside
        have begins : before.any isWord = false := by
          by_contra follows
          have outside := starts (by simpa using follows) c rfl
          simp [inside] at outside
        rw [whole] at heads unused size ⊢
        have held : 0 < run.length := List.length_pos_of_ne_nil text.1
        have free : run ≠ new := by
          rintro rfl
          have front := front_of_findMatch unused
          simp [wholeWord?_run text stops begins] at front
        by_cases same : run = old
        -- The old word is passed over together with the blank behind it, which ends it in both texts.
        · subst same
          have found : wholeWord? run before (run ++ rest) = some rest := by
            rw [wholeWord?_run text stops begins, if_pos rfl]
          obtain ⟨place, headed⟩ := headed_of_bareWord? found (front_of_findMatch heads)
          cases rest with
          | nil => cases headed
          | cons gap rest =>
            have outside := outside_of_headed? headed
            rw [replaceFrom_append text.1 found, replaceFrom_cons (wholeWord?_outside outside rest)]
            rw [List.append_cons] at heads unused
            have heads := behind_of_findMatch heads
            have unused := behind_of_findMatch unused
            rw [List.getLast?_concat] at heads unused
            have starts (follows : (some gap).any isWord = true) (d : Char) (_ : d ∈ rest.head?) :
                isWord d = false := by simp [outside] at follows
            exact .word place free headed
              (later (by simp at size; omega) starts heads unused rfl)
        · have front : wholeWord? old before (run ++ rest) = none := by
            rw [wholeWord?_run text stops begins, if_neg same]
          have starts (_ : run.getLast?.any isWord = true) := stops
          rw [(anchored_bareWord? old).findMatch_run text (front_of_findMatch heads)] at heads
          rw [(anchored_wholeWord? new).findMatch_run text (front_of_findMatch unused)] at unused
          rw [(anchored_wholeWord? old).replaceFrom_run text front]
          exact .run text same free stops
            (later (by simp at size; omega) starts heads unused rfl)
      · have outside : isWord c = false := by simpa using inside
        rw [replaceFrom_cons (wholeWord?_outside outside cs)]
        have starts (follows : (some c).any isWord = true) (d : Char) (_ : d ∈ cs.head?) :
            isWord d = false := by simp [outside] at follows
        exact .char outside (later (by rw [← size]; simp) starts
          (findMatch_cons_eq_none.mp heads).2 (findMatch_cons_eq_none.mp unused).2 rfl)

theorem Renamable.renamed {old new cs : List Char} (renamable : Renamable old new cs) :
    Renamed old new none cs (renameWord old new cs) := by
  refine renamed_replaceFrom nofun ?_ ?_
  · simpa [hasMatch] using renamable.heads
  · simpa [hasMatch] using renamable.unused

section Outlines

theorem isNeutral_of_mem_outline {mode : Mode} {run : List Char}
    (inside : ∀ c ∈ run, isWord c = true) : ∀ place ∈ outline mode run, IsNeutral place := by
  rintro _ member c rfl
  have plain := isPlain_of_isWord (inside c (mem_of_mem_outline member))
  simp only [isPlain, isOpener, Bool.and_eq_true, Bool.not_eq_true'] at plain
  exact ⟨by simpa using plain.1.2, plain.2⟩

/-- The mode behind a word depends on the mode in front of it only. -/
def Mode.behindWord : Mode → Mode
  | .code => .code
  | .quoted quote => .quoted quote
  | .escaped quote => .quoted quote

theorem Mode.Apt.run {mode : Mode} (apt : mode.Apt) (cs : List Char) : (mode.run cs).Apt := by
  induction cs generalizing mode with
  | nil => exact apt
  | cons c cs ih => exact ih (apt.next c)

theorem Mode.Apt.run_word {mode : Mode} (apt : mode.Apt) {run : List Char} (text : IsWordText run) :
    mode.run run = mode.behindWord := by
  obtain ⟨held, inside⟩ := text
  have stays {mode : Mode} (apt : mode.Apt) {c : Char} (word : isWord c = true) :
      mode.next c = mode.behindWord := by
    have unquoted := isQuote_of_isPlain (isPlain_of_isWord word)
    have solid : c ≠ '\\' := by
      rintro rfl
      exact absurd word (by decide)
    cases mode with
    | code => simp [Mode.next, Mode.behindWord, unquoted]
    | quoted quote =>
      have other : c ≠ quote := by
        rintro rfl
        simp [Mode.Apt, unquoted] at apt
      simp [Mode.next, Mode.behindWord, solid, other]
    | escaped quote => rfl
  induction run generalizing mode with
  | nil => exact absurd rfl held
  | cons c run ih =>
    rw [Mode.run_cons]
    cases run with
    | nil => exact stays apt (inside c (.head _))
    | cons d run =>
      rw [ih (apt.next c) (List.cons_ne_nil d run) fun e member => inside e (.tail _ member),
        stays apt (inside c (.head _))]
      cases mode <;> rfl

theorem balancedFrom_neutrals {line : List (Option Char)}
    (neutral : ∀ place ∈ line, IsNeutral place) (depth : Nat) (rest : List (Option Char)) :
    balancedFrom depth (line ++ rest) = balancedFrom depth rest := by
  induction line with
  | nil => rfl
  | cons place line ih =>
    rw [List.cons_append, balancedFrom_neutral (neutral place (.head _)),
      ih fun other member => neutral other (.tail _ member)]

theorem closeOffset?_neutrals {line : List (Option Char)}
    (neutral : ∀ place ∈ line, IsNeutral place) (pending : List Char)
    (rest : List (Option Char)) :
    (closeOffset? pending (line ++ rest)).isSome = (closeOffset? pending rest).isSome := by
  induction line with
  | nil => rfl
  | cons place line ih =>
    rw [List.cons_append, closeOffset?_neutral _ (neutral place (.head _)), Option.isSome_map,
      ih fun other member => neutral other (.tail _ member)]

theorem isSome_closeOffset?_congr (place : Option Char) {first second : List (Option Char)}
    (same : ∀ pending, (closeOffset? pending first).isSome = (closeOffset? pending second).isSome)
    (pending : List Char) :
    (closeOffset? pending (place :: first)).isSome =
      (closeOffset? pending (place :: second)).isSome := by
  rw [closeOffset?_cons, closeOffset?_cons]
  generalize closeStep pending place = step
  obtain _ | _ | pending := step
  · rfl
  · rfl
  · simpa using same pending

end Outlines

namespace Renamed

variable {old new as bs : List Char} {before : Option Char}

section Groups

variable (word : IsWordText old) (word' : IsWordText new)

include word word'

/-- What is read off an outline place by place, without regard to neutral places, is read alike. -/
theorem outline_alike {S : Type} (read : S → List (Option Char) → Bool)
    (skips : ∀ line, (∀ place ∈ line, IsNeutral place) → ∀ state rest,
      read state (line ++ rest) = read state rest)
    (steps : ∀ place first second, (∀ state, read state first = read state second) → ∀ state,
      read state (place :: first) = read state (place :: second))
    (renamed : Renamed old new before as bs) {mode : Mode} (apt : mode.Apt) (state : S) :
    read state (outline mode as) = read state (outline mode bs) := by
  -- The mode goes along with the induction: both words leave it the same behind them.
  induction renamed generalizing mode state with
  | nil => rfl
  | @char _ c _ _ _ _ ih => exact steps _ _ _ (ih (apt.next c)) state
  | @run _ run _ _ text _ _ _ _ ih =>
    have neutral : ∀ place ∈ outline mode run, IsNeutral place := isNeutral_of_mem_outline text.2
    rw [outline_append, outline_append, skips _ neutral, skips _ neutral]
    exact ih (apt.run run) state
  | @word _ gap _ _ _ _ _ _ ih =>
    have same : mode.run new = mode.run old := by rw [apt.run_word word, apt.run_word word']
    rw [outline_append, outline_append, same, skips _ (isNeutral_of_mem_outline word.2),
      skips _ (isNeutral_of_mem_outline word'.2)]
    exact steps _ _ _ (ih ((apt.run old).next gap)) state

theorem bracesBalanced (renamed : Renamed old new before as bs) :
    bracesBalanced as = bracesBalanced bs :=
  renamed.outline_alike word word' balancedFrom (fun _ neutral => balancedFrom_neutrals neutral)
    (fun place _ _ same => balancedFrom_congr place same) Mode.apt_code 0

theorem closeOffset?_isSome (renamed : Renamed old new before as bs) {mode : Mode}
    (apt : mode.Apt) (pending : List Char) :
    (closeOffset? pending (outline mode as)).isSome =
      (closeOffset? pending (outline mode bs)).isSome :=
  renamed.outline_alike word word' (fun pending line => (closeOffset? pending line).isSome)
    (fun _ neutral => closeOffset?_neutrals neutral)
    (fun place _ _ same => isSome_closeOffset?_congr place same) apt pending

end Groups

section Headings

variable (word : IsWordText old) (word' : IsWordText new)

include word word'

theorem trimLeft (renamed : Renamed old new before as bs) :
    ∃ before, Renamed old new before (trimLeft as) (trimLeft bs) := by
  have solid {run rest : List Char} (text : IsWordText run) :
      Text.trimLeft (run ++ rest) = run ++ rest := trimLeft_eq_self (isBlank_head?_word text rest)
  induction renamed with
  | nil before => exact ⟨before, .nil before⟩
  | @char before c as bs outside rest ih =>
    by_cases blank : isBlank c = true
    · simpa [Text.trimLeft, blank] using ih
    · exact ⟨before, by simpa [Text.trimLeft, blank] using rest.char outside⟩
  | run text other unused stops rest _ =>
    rw [solid text, solid text]
    exact ⟨none, rest.run text other unused stops⟩
  | word free differs headed rest _ =>
    rw [solid word, solid word']
    exact ⟨_, rest.word free differs headed⟩

theorem dropLiteral? (renamed : Renamed old new before as bs) {mark : Char}
    (solid : isWord mark = false) :
    Option.Rel (Renamed old new (some mark)) (dropLiteral? [mark] as) (dropLiteral? [mark] bs) := by
  have apart {run rest : List Char} (text : IsWordText run) :
      Text.dropLiteral? [mark] (run ++ rest) = none := by
    obtain ⟨held, inside⟩ := text
    cases run with
    | nil => exact absurd rfl held
    | cons c run =>
      have other : mark ≠ c := by
        rintro rfl
        simp [inside mark (.head _)] at solid
      simp [Text.dropLiteral?, other]
  cases renamed with
  | nil => exact .none
  | @char _ c _ _ _ rest =>
    by_cases same : mark = c
    · subst same
      simpa [Text.dropLiteral?] using rest
    · simp [Text.dropLiteral?, same]
  | run text =>
    rw [apart text, apart text]
    exact .none
  | word =>
    rw [apart word, apart word']
    exact .none

theorem dropBlanks? (renamed : Renamed old new before as bs) :
    Option.Rel (fun cs ds => ∃ before, Renamed old new before cs ds)
      (dropBlanks? as) (dropBlanks? bs) := by
  have solid {run rest : List Char} (text : IsWordText run) :
      Text.dropBlanks? (run ++ rest) = none := dropBlanks?_eq_none (isBlank_head?_word text rest)
  cases renamed with
  | nil => exact .none
  | @char _ c _ _ _ rest =>
    rw [Text.dropBlanks?, Text.dropBlanks?]
    split
    next => exact .some (rest.trimLeft word word')
    next => exact .none
  | run text =>
    rw [solid text, solid text]
    exact .none
  | word =>
    rw [solid word, solid word']
    exact .none

theorem head?_isWord (renamed : Renamed old new before as bs) :
    as.head?.any isWord = bs.head?.any isWord := by
  have begins {run rest : List Char} (text : IsWordText run) :
      (run ++ rest).head?.any isWord = true := by
    obtain ⟨held, inside⟩ := text
    cases run with
    | nil => exact absurd rfl held
    | cons c run => simp [inside c (.head _)]
  cases renamed with
  | nil => rfl
  | char => rfl
  | run text => rw [begins text, begins text]
  | word => rw [begins word, begins word']

theorem stops (renamed : Renamed old new before as bs) (outside : ∀ c ∈ as.head?, isWord c = false) :
    ∀ c ∈ bs.head?, isWord c = false := by
  have alike := renamed.head?_isWord word word'
  intro c first
  rw [Option.mem_def] at first
  cases front : as.head? with
  | none => simpa [front, first] using alike
  | some d => simpa [front, first, outside d front] using alike

theorem headed? (renamed : Renamed old new before as bs) :
    SameUpTo old new '{' (headed? as) (headed? bs) := by
  refine rel_bind (renamed.dropBlanks? word word') fun cs ds ⟨_, renamed⟩ => ?_
  have brace {name : List Char} {cs ds : List Char} {before : Option Char}
      (renamed : Renamed old new before cs ds) :
      SameUpTo old new '{'
        ((Text.dropLiteral? ['{'] (Text.trimLeft cs)).bind fun rest => some (name, rest))
        ((Text.dropLiteral? ['{'] (Text.trimLeft ds)).bind fun rest => some (name, rest)) := by
    obtain ⟨_, trimmed⟩ := renamed.trimLeft word word'
    exact rel_bind (trimmed.dropLiteral? word word' (by decide)) fun _ _ rest => .some ⟨rfl, rest⟩
  cases renamed with
  | nil => exact .none
  | @char _ c cs ds outside rest =>
    have none (rest : List Char) : takeWord? (c :: rest) = none :=
      takeRun?_eq_none (by simpa using outside)
    rw [none, none]
    exact .none
  | run text other unused stops rest =>
    rw [takeWord?_append text stops, takeWord?_append text (rest.stops word word' stops)]
    exact brace rest
  | @word _ gap cs ds free differs headed rest =>
    -- The word stands where the name should be, and no brace is behind it.
    have outside := outside_of_headed? headed
    have absent := dropLiteral?_of_headed? headed
    have behind : Renamed old new none (gap :: cs) (gap :: ds) := rest.char outside
    obtain ⟨_, trimmed⟩ := behind.trimLeft word word'
    have alike := isSome_eq_of_rel (trimmed.dropLiteral? word word' (by decide : isWord '{' = false))
    have absent' : Text.dropLiteral? ['{'] (Text.trimLeft (gap :: ds)) = none := by
      simpa [absent] using alike.symm
    rw [takeWord?_append word (by simpa using outside),
      takeWord?_append word' (by simpa using outside)]
    simp only [Option.bind_eq_bind, Option.bind_some, absent, absent', Option.bind_none]
    exact .none

theorem blockHeader? (renamed : Renamed old new before as bs) {keyword keyword' : List Char}
    (becomes : Becomes old new keyword keyword') (text : IsWordText keyword) :
    SameUpTo old new '{' (blockHeader? keyword before as) (blockHeader? keyword' before bs) := by
  have text' := becomes.isWordText word' text
  cases renamed with
  | nil =>
    rw [blockHeader?_nil, blockHeader?_nil]
    exact .none
  | char outside =>
    rw [blockHeader?_outside text outside, blockHeader?_outside text' outside]
    exact .none
  | @run _ run cs ds inside other unused stops rest =>
    have stops' := rest.stops word word' stops
    have neither (apart : run ≠ keyword) (apart' : run ≠ keyword') :
        SameUpTo old new '{' (Text.blockHeader? keyword before (run ++ cs))
          (Text.blockHeader? keyword' before (run ++ ds)) := by
      rw [blockHeader?_other text inside stops apart, blockHeader?_other text' inside stops' apart']
      exact .none
    -- A run that stays is neither word, so that it can only be the header of a kept keyword.
    cases becomes with
    | renamed => exact neither other unused
    | kept =>
      by_cases same : run = keyword
      · subst same
        by_cases free : IsFree before
        · rw [blockHeader?_keyword free, blockHeader?_keyword free]
          exact rest.headed? word word'
        · rw [blockHeader?_bound free, blockHeader?_bound free]
          exact .none
      · exact neither same same
  | @word _ gap cs ds free differs headed rest =>
    have outside := outside_of_headed? headed
    cases becomes with
    | renamed =>
      have behind : Renamed old new none (gap :: cs) (gap :: ds) := rest.char outside
      rw [blockHeader?_keyword free, blockHeader?_keyword free]
      exact behind.headed? word word'
    | kept other unused =>
      rw [blockHeader?_other text word (by simpa using outside) (Ne.symm other),
        blockHeader?_other text word' (by simpa using outside) (Ne.symm unused)]
      exact .none

end Headings

section Bodies

variable {body rest : List Char}

theorem split_word {run cs : List Char} (inside : ∀ c ∈ run, isWord c = true)
    (whole : run ++ cs = body ++ '}' :: rest) :
    ∃ middle, body = run ++ middle ∧ cs = middle ++ '}' :: rest := by
  rcases List.append_eq_append_iff.mp whole with ⟨middle, same, behind⟩ | ⟨middle, same, behind⟩
  · exact ⟨middle, same, behind⟩
  · cases middle with
    | nil => exact ⟨[], by simpa using same.symm, by simpa using behind.symm⟩
    | cons c middle =>
      -- Otherwise the brace would be a character of the word.
      cases (List.cons.inj behind).1
      exact absurd (inside '}' (by simp [same])) (by decide)

/-- Up to a brace in front of which the old word does not occur, both texts are the same. -/
theorem behind (word : IsWordText old) (renamed : Renamed old new before (body ++ '}' :: rest) bs)
    (plain : findMatch (wholeWord? old) before body = none) :
    ∃ rest', bs = body ++ '}' :: rest' ∧ Renamed old new (some '}') rest rest' := by
  generalize whole : body ++ '}' :: rest = as at renamed
  induction renamed generalizing body with
  | nil => simp at whole
  | @char _ c _ _ _ behind ih =>
    cases body with
    | nil =>
      cases whole
      exact ⟨_, rfl, behind⟩
    | cons d body =>
      cases whole
      obtain ⟨rest', rfl, tail⟩ := ih (findMatch_cons_eq_none.mp plain).2 rfl
      exact ⟨rest', rfl, tail⟩
  | @run before run _ _ text _ _ _ _ ih =>
    obtain ⟨middle, rfl, rfl⟩ := split_word text.2 whole.symm
    have later := behind_of_findMatch plain
    rw [Option.or_of_isSome (List.getLast?_isSome.mpr text.1)] at later
    obtain ⟨rest', rfl, tail⟩ := ih later rfl
    exact ⟨rest', by simp, tail⟩
  | @word before gap _ _ free _ headed _ _ =>
    -- The old word would stand at the front of the body, where it would have been found.
    obtain ⟨middle, rfl, behind⟩ := split_word word.2 whole.symm
    have stops : ∀ c ∈ middle.head?, isWord c = false := by
      cases middle with
      | nil => simp
      | cons c middle =>
        cases (List.cons.inj behind).1
        simpa using outside_of_headed? headed
    have front := front_of_findMatch plain
    simp [wholeWord?_run word stops (any_of_isFree free)] at front

end Bodies

end Renamed

end SchemaAtlas.Text
