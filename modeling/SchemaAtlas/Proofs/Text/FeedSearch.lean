import SchemaAtlas.Proofs.Text.Blocks
import SchemaAtlas.Proofs.Text.Feeds
import SchemaAtlas.Proofs.Text.Matches

/-!
Searches through two texts that differ in carriage returns in front of line feeds: they find the same
blocks, matches, lines and words, which differ in carriage returns only.
-/

set_option autoImplicit false

namespace SchemaAtlas.Text

variable {as bs : List Char}

/-- Two blocks of the same name and line whose bodies differ in carriage returns. -/
structure Block.Refed (block other : Block) : Prop where
  name : block.name = other.name
  body : Text.Refed block.body other.body
  line : block.line = other.line

structure BlockScan.Refed (scan other : BlockScan) : Prop where
  blocks : List.Forall₂ Block.Refed scan.blocks other.blocks
  unclosed : scan.unclosed = other.unclosed

namespace Refed

theorem blocksFrom (refed : Refed as bs) {keyword : List Char} (word : IsWordText keyword)
    (line : Nat) (before : Option Char) :
    (blocksFrom keyword 0 line before as).Refed (blocksFrom keyword 0 line before bs) := by
  have outside {c : Char} (feed : isFeed c = true) (before : Option Char) (cs : List Char) :
      Text.blockHeader? keyword before (c :: cs) = none :=
    blockHeader?_outside word (isWord_of_isFeed feed) before cs
  -- The induction is on the length, since a block is passed over as a whole.
  generalize size : as.length = n
  induction n using Nat.strong_induction_on generalizing as bs line before with
  | _ n ih =>
    have later {cs ds : List Char} (rest : Refed cs ds) (shorter : cs.length < n) (line : Nat)
        (before : Option Char) := ih cs.length shorter rest line before rfl
    cases refed with
    | nil => exact ⟨.nil, rfl⟩
    | @feed cs ds rest =>
      rw [blocksFrom_cons _ _ _ _ _ (outside (by rfl) _ _),
        blocksFrom_cons _ _ _ _ _ (outside (by rfl) _ _),
        blocksFrom_cons _ _ _ _ _ (outside (by rfl) _ _)]
      exact later rest (by rw [← size]; simp) _ _
    | @same c cs ds rest =>
      obtain ⟨none, none'⟩ | ⟨⟨name, behind⟩, ⟨_, behind'⟩, found, found', rfl, inside⟩ :=
        eq_of_rel ((Refed.same c rest).blockHeader? word before)
      · rw [blocksFrom_cons _ _ _ _ _ none, blocksFrom_cons _ _ _ _ _ none']
        exact later rest (by rw [← size]; simp) _ _
      · obtain ⟨none, none'⟩ | ⟨⟨body, tail⟩, ⟨body', tail'⟩, closed, closed', bodies, tails⟩ :=
          eq_of_rel (inside.closeGroup? '{')
        · rw [blocksFrom_unclosed found none, blocksFrom_unclosed found' none']
          exact ⟨.nil, rfl⟩
        · obtain ⟨matched, whole, first⟩ := blocksFrom_found found closed line
          obtain ⟨matched', whole', second⟩ := blocksFrom_found found' closed' line
          have lines : (matched ++ ['}']).count '\n' = (matched' ++ ['}']).count '\n' := by
            have total := (Refed.same c rest).count_feeds
            rw [whole, whole'] at total
            simp only [List.count_append, List.count_cons, tails.count_feeds] at total ⊢
            omega
          have shorter : tail.length < n := by
            rw [← size, whole]
            simp
            omega
          have behind := later tails shorter (line + (matched' ++ ['}']).count '\n') (some '}')
          rw [first, second, lines]
          exact ⟨.cons ⟨rfl, bodies, rfl⟩ behind.blocks, behind.unclosed⟩

theorem findMatch {α : Type} {here : Option Char → List Char → Option α}
    {related : α → α → Prop}
    (breaks : ∀ before c cs, isFeed c = true → here before (c :: cs) = none)
    (each : ∀ before {as bs}, Refed as bs → Option.Rel related (here before as) (here before bs))
    (refed : Refed as bs) (before : Option Char) :
    Option.Rel related (findMatch here before as) (findMatch here before bs) := by
  induction refed generalizing before with
  | nil => exact each before .nil
  | @same c cs ds rest ih =>
    rw [Text.findMatch, Text.findMatch]
    obtain ⟨none, none'⟩ | ⟨a, b, found, found', alike⟩ := eq_of_rel (each before (.same c rest))
    · simpa only [none, none'] using ih _
    · simpa only [found, found'] using Option.Rel.some alike
  | feed rest ih =>
    rw [Text.findMatch, Text.findMatch, Text.findMatch]
    simpa only [breaks _ _ _ (by rfl : isFeed '\n' = true), breaks _ _ _ (by rfl : isFeed '\r' = true)]
      using ih _

/-- The same matches are found in both texts if each ends with a character of its own. -/
theorem matchesFrom {α : Type} {here : Option Char → List Char → Option (α × List Char)}
    {related : α → α → Prop} (last : Char)
    (breaks : ∀ before c cs, isFeed c = true → here before (c :: cs) = none)
    (ends : ∀ before cs found, here before cs = some found → last :: found.2 <:+ cs)
    (each : ∀ before {as bs}, Refed as bs →
      Option.Rel (fun found other => related found.1 other.1 ∧ Refed found.2 other.2)
        (here before as) (here before bs))
    (refed : Refed as bs) (before : Option Char) :
    List.Forall₂ related (matchesFrom here 0 before as) (matchesFrom here 0 before bs) := by
  -- The induction is on the length, since a match is passed over as a whole.
  generalize size : as.length = n
  induction n using Nat.strong_induction_on generalizing as bs before with
  | _ n ih =>
    have later {cs ds : List Char} (rest : Refed cs ds) (shorter : cs.length < n)
        (before : Option Char) := ih cs.length shorter rest before rfl
    cases refed with
    | nil => exact .nil
    | @feed cs ds rest =>
      have none := breaks before '\n' cs rfl
      rw [matchesFrom_cons (breaks _ _ _ rfl), matchesFrom_cons (breaks _ _ _ rfl),
        matchesFrom_cons (breaks _ _ _ rfl)]
      exact later rest (by rw [← size]; simp) _
    | @same c cs ds rest =>
      obtain ⟨none, none'⟩ | ⟨⟨a, tail⟩, ⟨b, tail'⟩, found, found', alike, tails⟩ :=
        eq_of_rel (each before (.same c rest))
      · rw [matchesFrom_cons none, matchesFrom_cons none']
        exact later rest (by rw [← size]; simp) _
      · obtain ⟨head, whole⟩ := ends _ _ _ found
        obtain ⟨head', whole'⟩ := ends _ _ _ found'
        have split : c :: cs = (head ++ [last]) ++ tail := by rw [← whole]; simp
        have split' : c :: ds = (head' ++ [last]) ++ tail' := by rw [← whole']; simp
        have shorter : tail.length < n := by
          rw [← size, split]
          simp
          omega
        rw [split] at found ⊢
        rw [split'] at found' ⊢
        rw [matchesFrom_append (by simp) found, matchesFrom_append (by simp) found',
          List.getLast?_concat, List.getLast?_concat]
        exact .cons alike (later tails shorter _)

/-- Matches that do not look at what is before them are replaced in both texts alike. -/
theorem replaceFrom (replacement : List Char) {here : List Char → Option (List Char)}
    (breaks : ∀ c cs, isFeed c = true → here (c :: cs) = none)
    (ends : ∀ cs rest, here cs = some rest → ∃ matched, matched ≠ [] ∧ cs = matched ++ rest)
    (each : ∀ {as bs}, Refed as bs → Option.Rel Refed (here as) (here bs))
    (refed : Refed as bs) (before other : Option Char) :
    Refed (replaceFrom replacement (fun _ => here) 0 before as)
      (replaceFrom replacement (fun _ => here) 0 other bs) := by
  generalize size : as.length = n
  induction n using Nat.strong_induction_on generalizing as bs before other with
  | _ n ih =>
    have later {cs ds : List Char} (rest : Refed cs ds) (shorter : cs.length < n)
        (before other : Option Char) := ih cs.length shorter rest before other rfl
    cases refed with
    | nil => exact .nil
    | @feed cs ds rest =>
      rw [replaceFrom_cons (breaks _ _ rfl), replaceFrom_cons (breaks _ _ rfl),
        replaceFrom_cons (breaks _ _ rfl)]
      exact .feed (later rest (by rw [← size]; simp) _ _)
    | @same c cs ds rest =>
      obtain ⟨none, none'⟩ | ⟨tail, tail', found, found', tails⟩ := eq_of_rel (each (.same c rest))
      · rw [replaceFrom_cons none, replaceFrom_cons none']
        exact .same c (later rest (by rw [← size]; simp) _ _)
      · obtain ⟨matched, held, split⟩ := ends _ _ found
        obtain ⟨matched', held', split'⟩ := ends _ _ found'
        have shorter : tail.length < n := by
          have some := List.length_pos_of_ne_nil held
          rw [← size, split, List.length_append]
          omega
        rw [split] at found ⊢
        rw [split'] at found' ⊢
        rw [replaceFrom_append held found, replaceFrom_append held' found']
        exact (Refed.refl replacement).append (later tails shorter _ _)

theorem wordsFrom (refed : Refed as bs) (word : List Char) :
    wordsFrom word as = wordsFrom word bs := by
  have feeds : isBlank '\n' = true ∧ isBlank '\r' = true := by decide
  induction refed generalizing word with
  | nil => rfl
  | same c _ ih => simp only [Text.wordsFrom, ih]
  | feed _ ih => cases word <;> simp [Text.wordsFrom, feeds, ih]

theorem words (refed : Refed as bs) : words as = words bs := refed.wordsFrom []

/-- The lines of the second text end with a carriage return at most. -/
theorem splitAt (refed : Refed as bs) : List.Forall₂ (fun line other =>
    other = line ∨ other = line ++ ['\r']) (splitAt '\n' as) (splitAt '\n' bs) := by
  induction refed with
  | nil => exact .cons (.inl rfl) .nil
  | @same c as bs _ ih =>
    rw [Text.splitAt, Text.splitAt]
    split
    next => exact .cons (.inl rfl) ih
    next =>
      generalize Text.splitAt '\n' as = pieces, Text.splitAt '\n' bs = others at ih ⊢
      cases ih with
      | nil => exact .cons (.inl rfl) .nil
      | cons first rest =>
        refine .cons ?_ rest
        rcases first with rfl | rfl
        · exact .inl rfl
        · exact .inr rfl
  | @feed as bs _ ih =>
    have ends : Text.splitAt '\n' ('\r' :: '\n' :: bs) = ['\r'] :: Text.splitAt '\n' bs :=
      @splitAt_append '\n' ['\r'] (by decide) bs
    rw [ends, Text.splitAt, if_pos rfl]
    exact .cons (.inr rfl) ih

theorem lines (refed : Refed as bs) :
    List.Forall₂ (fun line other => Text.trim line = Text.trim other) (lines as) (lines bs) :=
  refed.splitAt.imp fun _ _ ends => by
    rcases ends with rfl | rfl
    · rfl
    · exact (trim_append_right (by decide)).symm

end Refed

end SchemaAtlas.Text
