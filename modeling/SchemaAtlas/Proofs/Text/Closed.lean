import SchemaAtlas.Proofs.Text.Blocks
import SchemaAtlas.Proofs.Text.Matches
import SchemaAtlas.Text.Comment

/-!
Texts that end with a closing brace outside strings and comments. What is found in such a text is
found in it whatever follows, and what follows is read as if it stood alone.
-/

set_option autoImplicit false

namespace SchemaAtlas.Text

/-- The part of a text that a scan for comments stands in behind some of the text. -/
def Region.run : Region → List Char → Region
  | region, [] => region
  | .text .code, '/' :: '/' :: cs => run .lineComment cs
  | .text .code, '/' :: '*' :: cs => run .blockComment cs
  | .text mode, c :: cs => run (.text (mode.next c)) cs
  | .lineComment, c :: cs => if c = '\n' then run (.text .code) cs else run .lineComment cs
  | .blockComment, '*' :: '/' :: cs => run (.text .code) cs
  | .blockComment, _ :: cs => run .blockComment cs

/-- The last character of a text that is no blank is a closing brace, outside strings and comments. -/
def EndsClosed (cs : List Char) : Prop :=
  ∃ front gap, cs = front ++ '}' :: gap ∧ (∀ c ∈ gap, isBlank c = true) ∧
    (Region.text .code).run front = .text .code

theorem stripFrom_nil (region : Region) : stripFrom region [] = [] := by
  cases region with
  | text mode => cases mode <;> rfl
  | lineComment => rfl
  | blockComment => rfl

theorem stripFrom_blockComment {c : Char} {cs : List Char}
    (goes : c = '*' → cs.head? ≠ some '/') : stripFrom .blockComment (c :: cs) =
      if c = '\n' then c :: stripFrom .blockComment cs else stripFrom .blockComment cs := by
  rw [stripFrom]
  rintro rest star rfl
  exact goes star rfl

/-- Comments end or go on in front of a character that no comment mark ends with. -/
theorem stripFrom_append {c : Char} (apart : c ≠ '/' ∧ c ≠ '*') (region : Region)
    (cs rest : List Char) : stripFrom region (cs ++ c :: rest) =
      stripFrom region cs ++ stripFrom (region.run cs) (c :: rest) := by
  fun_induction Region.run region cs with
  | case1 region => rw [stripFrom_nil, List.nil_append, List.nil_append]
  | case2 cs ih => exact ih
  | case3 cs ih => exact ih
  | case4 mode d cs line block ih =>
    rw [List.cons_append, stripFrom_text, stripFrom_text, ih, List.cons_append]
    · intro inCode slash
      constructor <;> intro second <;> obtain ⟨more, rfl⟩ := List.head?_eq_some_iff.mp second
      · exact line more (by rw [inCode]) slash rfl
      · exact block more (by rw [inCode]) slash rfl
    · intro inCode slash
      cases cs with
      | nil => simpa using apart
      | cons e cs =>
        constructor <;> intro second <;> cases second
        · exact line cs (by rw [inCode]) slash rfl
        · exact block cs (by rw [inCode]) slash rfl
  | case5 cs ih => simp only [List.cons_append, stripFrom, if_true, ih]
  | case6 d cs other ih => simpa [stripFrom, other] using ih
  | case7 cs ih => exact ih
  | case8 d cs open' ih =>
    have later : cs.head? = some '/' → d = '*' → False := by
      intro second star
      obtain ⟨more, rfl⟩ := List.head?_eq_some_iff.mp second
      exact open' more star rfl
    rw [List.cons_append, stripFrom_blockComment fun star second => later second star,
      stripFrom_blockComment, ih]
    · split <;> rfl
    · intro star
      cases cs with
      | nil => simpa using apart.1
      | cons e cs => exact fun second => later second star

/-- The place in strings that goes with a part of a text; comments stand outside strings. -/
def Region.mode : Region → Mode
  | .text mode => mode
  | .lineComment => .code
  | .blockComment => .code

/-- A scan for strings stands in the same place with the comments and without them. -/
theorem run_stripFrom (region : Region) (cs : List Char) :
    region.mode.run (stripFrom region cs) = (region.run cs).mode := by
  fun_induction Region.run region cs with
  | case1 region => rw [stripFrom_nil, Mode.run_nil]
  | case2 cs ih => exact ih
  | case3 cs ih => exact ih
  | case4 mode d cs line block ih =>
    rw [stripFrom_text, Mode.run_cons]
    · exact ih
    · intro inCode slash
      constructor <;> intro second <;> obtain ⟨more, rfl⟩ := List.head?_eq_some_iff.mp second
      · exact line more (by rw [inCode]) slash rfl
      · exact block more (by rw [inCode]) slash rfl
  | case5 cs ih => exact ih
  | case6 d cs other ih => simpa [stripFrom, other] using ih
  | case7 cs ih => exact ih
  | case8 d cs open' ih =>
    rw [stripFrom_blockComment]
    · split
      next breaks =>
        rw [breaks]
        exact ih
      next => exact ih
    · intro star second
      obtain ⟨more, rfl⟩ := List.head?_eq_some_iff.mp second
      exact open' more star rfl

theorem stripFrom_quiet {quiet : List Char} (plain : ∀ c ∈ quiet, c ≠ '/' ∧ isQuote c = false)
    (rest : List Char) :
    stripFrom (.text .code) (quiet ++ rest) = quiet ++ stripFrom (.text .code) rest := by
  induction quiet with
  | nil => rfl
  | cons c quiet ih =>
    obtain ⟨solid, unquoted⟩ := plain c (.head _)
    rw [List.cons_append, stripFrom_text fun _ slash => absurd slash solid, Mode.next_code unquoted,
      ih fun d member => plain d (.tail _ member), List.cons_append]

theorem ne_of_isBlank {c : Char} (blank : isBlank c = true) :
    c ≠ '/' ∧ c ≠ '}' ∧ isQuote c = false := by
  refine ⟨?_, ?_, ?_⟩
  · rintro rfl
    cases blank
  · rintro rfl
    cases blank
  · by_contra quotes
    simp only [isQuote, Bool.not_eq_false, Bool.or_eq_true, decide_eq_true_eq] at quotes
    rcases quotes with (rfl | rfl) | rfl <;> cases blank

theorem run_unquoted {cs : List Char} (plain : ∀ c ∈ cs, isQuote c = false) :
    Mode.code.run cs = .code := by
  induction cs with
  | nil => rfl
  | cons c cs ih =>
    rw [Mode.run_cons, Mode.next_code (plain c (.head _)), ih fun d member => plain d (.tail _ member)]

/-- Without its comments, a text that ends closed still does, and all strings of it are closed. What
follows on a new line loses its comments by itself. -/
theorem EndsClosed.stripComments {cs : List Char} (ends : EndsClosed cs) :
    (∃ front gap, stripComments cs = front ++ '}' :: gap ∧ ∀ c ∈ gap, isBlank c = true) ∧
      Mode.code.run (stripComments cs) = .code ∧ ∀ rest,
        stripComments (cs ++ '\n' :: rest) = stripComments cs ++ '\n' :: stripComments rest := by
  obtain ⟨front, gap, rfl, blank, closed⟩ := ends
  have plain : ∀ c ∈ '}' :: gap, c ≠ '/' ∧ isQuote c = false := by
    intro c member
    rcases List.mem_cons.mp member with rfl | inside
    · decide
    · obtain ⟨solid, -, unquoted⟩ := ne_of_isBlank (blank c inside)
      exact ⟨solid, unquoted⟩
  have split (rest : List Char) : stripFrom (.text .code) (front ++ '}' :: (gap ++ rest)) =
      stripFrom (.text .code) front ++ '}' :: (gap ++ stripFrom (.text .code) rest) := by
    rw [stripFrom_append (by decide), closed, ← List.cons_append, stripFrom_quiet plain,
      List.cons_append]
  have whole : Text.stripComments (front ++ '}' :: gap) =
      stripFrom (.text .code) front ++ '}' :: gap := by
    have alone := split []
    rwa [stripFrom_nil, List.append_nil] at alone
  have outside : Mode.code.run (stripFrom (.text .code) front) = .code :=
    (run_stripFrom (.text .code) front).trans (by rw [closed]; rfl)
  refine ⟨⟨stripFrom (.text .code) front, gap, whole, blank⟩, ?_, fun rest => ?_⟩
  · rw [whole, Mode.run_append, outside, run_unquoted fun c member => (plain c member).2]
  · have feed : stripFrom (.text .code) ('\n' :: rest) = '\n' :: Text.stripComments rest :=
      stripFrom_text (by simp)
    rw [whole, Text.stripComments, List.append_assoc, List.cons_append, split, feed,
      List.append_assoc, List.cons_append]

/-- Behind brackets that balance, others balance on their own. -/
theorem balancedFrom_behind {depth : Nat} {places : List (Option Char)}
    (balanced : balancedFrom depth places = true) (rest : List (Option Char)) :
    balancedFrom depth (places ++ rest) = balancedFrom 0 rest := by
  induction places generalizing depth with
  | nil =>
    rw [balancedFrom, decide_eq_true_eq] at balanced
    rw [balanced, List.nil_append]
  | cons place places ih =>
    cases place with
    | none => exact ih balanced
    | some c =>
      rw [List.cons_append]
      by_cases opener : c = '{'
      · simp only [balancedFrom, opener, if_true] at balanced ⊢
        exact ih balanced
      · by_cases closer : c = '}'
        · cases depth with
          | zero => simp [balancedFrom, closer] at balanced
          | succ depth =>
            simp only [balancedFrom, closer, if_true] at balanced ⊢
            exact ih balanced
        · simp only [balancedFrom, opener, closer, if_false] at balanced ⊢
          exact ih balanced

theorem bracesBalanced_behind {cs : List Char} (balanced : bracesBalanced cs = true)
    (closed : Mode.code.run cs = .code) (rest : List Char) :
    bracesBalanced (cs ++ rest) = bracesBalanced rest := by
  rw [bracesBalanced, outline_append, closed, balancedFrom_behind balanced, bracesBalanced]

/-- The end of a group is found whatever follows it. -/
theorem closeOffset?_append {pending : List Char} {places : List (Option Char)} {n : Nat}
    (found : closeOffset? pending places = some n) (rest : List (Option Char)) :
    n < places.length ∧ closeOffset? pending (places ++ rest) = some n := by
  induction places generalizing pending n with
  | nil => cases found
  | cons place places ih =>
    rw [List.cons_append]
    rw [closeOffset?_cons] at found ⊢
    split at found
    next => cases found
    next ends =>
      cases found
      exact ⟨by simp, rfl⟩
    next later goes =>
      obtain ⟨k, inside, rfl⟩ := Option.map_eq_some_iff.mp found
      obtain ⟨within, behind⟩ := ih inside
      exact ⟨by simpa using within, by simp [behind]⟩

theorem closeGroup?_append {opener : Char} {cs body tail : List Char}
    (found : closeGroup? opener cs = some (body, tail)) (rest : List Char) :
    closeGroup? opener (cs ++ rest) = some (body, tail ++ rest) := by
  simp only [closeGroup?, Option.bind_eq_bind, Option.bind_eq_some_iff] at found ⊢
  obtain ⟨closer, pair, n, offset, same⟩ := found
  cases same
  obtain ⟨within, longer⟩ := closeOffset?_append offset (outline (Mode.code.run cs) rest)
  rw [length_outline] at within
  refine ⟨closer, pair, n, by rw [outline_append, longer], ?_⟩
  rw [List.take_append_of_le_length (by omega), List.drop_append_of_le_length (by omega)]
  rfl

/-- Where a group ends is seen from the text up to there. -/
theorem closeOffset?_take {pending : List Char} {places : List (Option Char)} {n : Nat}
    (found : closeOffset? pending places = some n) :
    closeOffset? pending (places.take (n + 1)) = some n := by
  induction places generalizing pending n with
  | nil => cases found
  | cons place places ih =>
    rw [List.take_succ_cons]
    rw [closeOffset?_cons] at found ⊢
    split at found
    next => cases found
    next => cases found; rfl
    next later goes =>
      obtain ⟨k, inside, rfl⟩ := Option.map_eq_some_iff.mp found
      rw [ih inside]
      rfl

/-- A group is cut off from every text that begins with it. -/
theorem closeGroup?_swap {opener closer : Char} {body rest : List Char}
    (found : closeGroup? opener (body ++ closer :: rest) = some (body, rest)) (other : List Char) :
    closeGroup? opener (body ++ closer :: other) = some (body, other) := by
  simp only [closeGroup?, Option.bind_eq_bind, Option.bind_eq_some_iff] at found
  obtain ⟨last, pair, n, offset, same⟩ := found
  have within : n < (body ++ closer :: rest).length := by
    simpa using (closeOffset?_append offset []).1
  have length : body.length = n := by
    have first : (body ++ closer :: rest).take n = body := congrArg Prod.fst (Option.some.inj same)
    have taken := congrArg List.length first
    rw [List.length_take] at taken
    omega
  have front : (outline .code (body ++ closer :: rest)).take (n + 1) =
      outline .code (body ++ [closer]) := by
    rw [List.append_cons, outline_append, List.take_left' (by simp [length])]
  have ends := closeOffset?_take offset
  rw [front] at ends
  have longer := (closeOffset?_append ends (outline (Mode.code.run (body ++ [closer])) other)).2
  rw [← outline_append, ← List.append_cons] at longer
  simp only [closeGroup?, pair, Option.bind_eq_bind, Option.bind_some, longer]
  simp [← length]

theorem blocksFrom_free {keyword : List Char} {before : Option Char} (free : IsFree before)
    (line : Nat) (cs : List Char) :
    blocksFrom keyword 0 line before cs = blocksFrom keyword 0 line none cs := by
  cases cs with
  | nil => rfl
  | cons c cs => rw [blocksFrom, blocksFrom, blockHeader?_free free]

/-- The block without its place in the text. -/
def Block.unnumbered (block : Block) : Block := { block with line := 0 }

/-- The blocks of a text without their places in it. -/
def BlockScan.unnumbered (scan : BlockScan) : BlockScan where
  blocks := scan.blocks.map Block.unnumbered
  unclosed := scan.unclosed.map fun block => { block with line := 0 }

theorem blocksFrom_unnumbered (keyword : List Char) (skip line other : Nat) (before : Option Char)
    (cs : List Char) : (blocksFrom keyword skip line before cs).unnumbered =
      (blocksFrom keyword skip other before cs).unnumbered := by
  induction cs generalizing skip line other before with
  | nil => rfl
  | cons c cs ih =>
    cases skip with
    | succ skip => exact ih _ _ _ _
    | zero =>
      rw [blocksFrom, blocksFrom]
      cases blockHeader? keyword before (c :: cs) with
      | none => exact ih _ _ _ _
      | some found =>
        simp only
        cases closeGroup? '{' found.2 with
        | none => rfl
        | some group =>
          have later := BlockScan.mk.inj (ih (cs.length - group.2.length)
            (if c = '\n' then line + 1 else line) (if c = '\n' then other + 1 else other) (some c))
          simp only [BlockScan.unnumbered, List.map_cons, later]
          rfl

theorem blocksFrom_blank {keyword : List Char} (word : IsWordText keyword) {gap : List Char}
    (blank : ∀ c ∈ gap, isBlank c = true) (line : Nat) {before : Option Char} (free : IsFree before)
    (rest : List Char) : ∃ next after, IsFree after ∧
      blocksFrom keyword 0 line before (gap ++ rest) = blocksFrom keyword 0 next after rest := by
  induction gap generalizing line before with
  | nil => exact ⟨line, before, free, rfl⟩
  | cons c gap ih =>
    have here := blank c (.head _)
    have free := isFree_of_isBlank here
    rw [List.cons_append, blocksFrom_cons _ _ _ _ _
      (blockHeader?_outside word (free c rfl).1 _ _)]
    exact ih (fun d member => blank d (.tail _ member)) _ free

/-- Behind one of its closing braces a text that ends closed has blanks only, or ends closed. -/
theorem tail_of_split {front gap matched tail : List Char} (blank : ∀ c ∈ gap, isBlank c = true)
    (split : front ++ '}' :: gap = matched ++ '}' :: tail) :
    tail = gap ∨ ∃ more, tail = more ++ '}' :: gap ∧ more.length < front.length := by
  rcases List.append_eq_append_iff.mp split with ⟨middle, -, behind⟩ | ⟨middle, rfl, behind⟩
  · cases middle with
    | nil => exact .inl (List.cons.inj behind).2.symm
    | cons c middle =>
      have inside : '}' ∈ gap := by simp [(List.cons.inj behind).2]
      exact absurd rfl (ne_of_isBlank (blank _ inside)).2.1
  · cases middle with
    | nil => exact .inl (List.cons.inj behind).2
    | cons c middle =>
      refine .inr ⟨middle, (List.cons.inj behind).2, ?_⟩
      simp only [List.length_append, List.length_cons]
      omega

/-- A search for blocks passes over a text that ends closed, and goes on from there as at first. -/
theorem blocksFrom_append {keyword : List Char} (word : IsWordText keyword) {front gap : List Char}
    (blank : ∀ c ∈ gap, isBlank c = true) {line : Nat} {before : Option Char}
    (closed : (blocksFrom keyword 0 line before (front ++ '}' :: gap)).unclosed = none)
    (rest : List Char) : ∃ next after, IsFree after ∧
      blocksFrom keyword 0 line before (front ++ '}' :: (gap ++ rest)) =
        { blocks := (blocksFrom keyword 0 line before (front ++ '}' :: gap)).blocks ++
            (blocksFrom keyword 0 next after rest).blocks
          unclosed := (blocksFrom keyword 0 next after rest).unclosed } := by
  have brace : IsFree (some '}') := isFree_brace (.inr rfl)
  -- Nothing but blanks: the search arrives at what follows.
  have passed (line : Nat) : ∃ next after, IsFree after ∧
      blocksFrom keyword 0 line (some '}') (gap ++ rest) =
        { blocks := (blocksFrom keyword 0 line (some '}') gap).blocks ++
            (blocksFrom keyword 0 next after rest).blocks
          unclosed := (blocksFrom keyword 0 next after rest).unclosed } := by
    obtain ⟨_, _, -, alone⟩ := blocksFrom_blank word blank line brace []
    obtain ⟨next, after, free, behind⟩ := blocksFrom_blank word blank line brace rest
    rw [List.append_nil] at alone
    exact ⟨next, after, free, by rw [alone, behind]; rfl⟩
  generalize size : front.length = n
  induction n using Nat.strong_induction_on generalizing front line before with
  | _ n ih =>
    cases front with
    | nil =>
      have outside := blockHeader?_outside (c := '}') word (by decide)
      rw [List.nil_append, List.nil_append, blocksFrom_cons _ _ _ _ _ (outside _ _),
        blocksFrom_cons _ _ _ _ _ (outside _ _)]
      exact passed _
    | cons d front =>
      have alone := blockHeader?_break gap word (c := '}') (by decide) before (d :: front)
      have behind := blockHeader?_break (gap ++ rest) word (c := '}') (by decide) before (d :: front)
      cases header : blockHeader? keyword before (d :: front) with
      | none =>
        rw [header] at alone behind
        rw [List.cons_append] at closed alone behind ⊢
        rw [blocksFrom_cons _ _ _ _ _ alone] at closed
        rw [List.cons_append, blocksFrom_cons _ _ _ _ _ alone, blocksFrom_cons _ _ _ _ _ behind]
        exact ih front.length (by rw [← size]; simp) closed rfl
      | some found =>
        obtain ⟨name, inside⟩ := found
        rw [header] at alone behind
        cases group : closeGroup? '{' (inside ++ '}' :: gap) with
        | none =>
          rw [blocksFrom_unclosed alone group] at closed
          cases closed
        | some found =>
          obtain ⟨body, tail⟩ := found
          have longer := closeGroup?_append group rest
          rw [List.append_assoc, List.cons_append] at longer
          obtain ⟨matched, split, first⟩ := blocksFrom_found alone group line
          obtain ⟨matched', split', second⟩ := blocksFrom_found behind longer line
          have same : matched' = matched := by
            have both : matched' ++ '}' :: (tail ++ rest) = matched ++ '}' :: (tail ++ rest) := by
              rw [← split', ← List.cons_append, ← List.append_assoc, split]
              simp
            exact List.append_cancel_right both
          subst same
          rw [first] at closed
          obtain rfl | ⟨more, rfl, shorter⟩ := tail_of_split blank split
          · obtain ⟨next, after, free, behind⟩ := passed (line + (matched' ++ ['}']).count '\n')
            exact ⟨next, after, free, by rw [second, first, behind]; simp⟩
          · obtain ⟨next, after, free, behind⟩ := ih more.length (size ▸ shorter) closed rfl
            refine ⟨next, after, free, ?_⟩
            rw [second, first, List.append_assoc, List.cons_append, behind]
            simp

/-- The blocks of a text that ends closed, and those of what follows it. -/
theorem blocks_append {keyword : String} (word : IsWordText keyword.toList) {front gap : List Char}
    (blank : ∀ c ∈ gap, isBlank c = true)
    (closed : (blocks keyword (front ++ '}' :: gap)).unclosed = none) (rest : List Char) :
    (blocks keyword (front ++ '}' :: (gap ++ rest))).unnumbered =
      { blocks := (blocks keyword (front ++ '}' :: gap)).unnumbered.blocks ++
          (blocks keyword rest).unnumbered.blocks
        unclosed := (blocks keyword rest).unnumbered.unclosed } := by
  obtain ⟨next, after, free, whole⟩ := blocksFrom_append word blank closed rest
  have again := blocksFrom_unnumbered keyword.toList 0 next 1 none rest
  rw [blocksFrom_free free] at whole
  rw [blocks, whole, blocks, blocks, ← again]
  simp [BlockScan.unnumbered]

theorem blocks_feed {keyword : String} (word : IsWordText keyword.toList) (cs : List Char) :
    (blocks keyword ('\n' :: cs)).unnumbered = (blocks keyword cs).unnumbered := by
  rw [blocks, blocksFrom_cons _ _ _ _ _ (blockHeader?_outside word (by decide) _ _),
    blocksFrom_free (isFree_of_isBlank (by decide)), blocksFrom_unnumbered _ _ _ 1]
  rfl

end SchemaAtlas.Text
