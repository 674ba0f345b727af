import SchemaAtlas.Proofs.Text.Renamed

/-!
Searches through two texts that differ in one word: they find the same blocks, under another keyword
where it is that word that begins them.
-/

set_option autoImplicit false

namespace SchemaAtlas.Text

namespace Renamed

variable {old new as bs : List Char} {before : Option Char} (word : IsWordText old)
  (word' : IsWordText new)

include word word'

theorem count_feeds (renamed : Renamed old new before as bs) : as.count '\n' = bs.count '\n' := by
  have none {run : List Char} (text : IsWordText run) : run.count '\n' = 0 := by
    refine List.count_eq_zero.mpr fun member => ?_
    exact absurd (text.2 '\n' member) (by decide)
  induction renamed with
  | nil => rfl
  | char _ _ ih => simp [List.count_cons, ih]
  | run _ _ _ _ _ ih => simp [ih]
  | word _ _ _ _ ih => simp [none word, none word', List.count_cons, ih]

theorem mem_iff (renamed : Renamed old new before as bs) {c : Char} (outside : isWord c = false) :
    c ∈ as ↔ c ∈ bs := by
  have absent {run : List Char} (text : IsWordText run) : c ∉ run := fun member => by
    simp [text.2 c member] at outside
  induction renamed with
  | nil => rfl
  | char _ _ ih => simp [ih]
  | run _ _ _ _ _ ih => simp [ih]
  | word _ _ _ _ ih => simp [absent word, absent word', ih]

theorem blank_iff (renamed : Renamed old new before as bs) :
    (∀ c ∈ as, isBlank c = true) ↔ ∀ c ∈ bs, isBlank c = true := by
  have solid {run rest : List Char} (text : IsWordText run) :
      ¬ ∀ c ∈ run ++ rest, isBlank c = true := by
    intro blank
    obtain ⟨c, member⟩ := List.exists_mem_of_ne_nil run text.1
    have here := blank c (List.mem_append_left _ member)
    rw [isBlank_of_isWord (text.2 c member)] at here
    cases here
  induction renamed with
  | nil => rfl
  | char _ _ ih => simp [ih]
  | run text => exact iff_of_false (solid text) (solid text)
  | word => exact iff_of_false (solid word) (solid word')

theorem closeGroup? (renamed : Renamed old new (some '{') as bs)
    (plain : ∀ found, closeGroup? '{' as = some found →
      hasMatch (wholeWord? old) found.1 = false) :
    SameUpTo old new '}' (closeGroup? '{' as) (closeGroup? '{' bs) := by
  cases group : Text.closeGroup? '{' as with
  | none =>
    -- Where the group ends is read off the outline only.
    have offset (cs : List Char) : (Text.closeGroup? '{' cs).isSome =
        (closeOffset? ['}'] (outline .code cs)).isSome := by
      rw [Text.closeGroup?]
      cases found : closeOffset? ['}'] (outline .code cs) <;> simp [closerOf?, found]
    have alike := renamed.closeOffset?_isSome word word' Mode.apt_code ['}']
    rw [← offset, ← offset, group] at alike
    have none : Text.closeGroup? '{' bs = none := by simpa using alike.symm
    rw [none]
    exact .none
  | some found =>
    obtain ⟨body, rest⟩ := found
    obtain ⟨closer, pair, whole⟩ := eq_append_of_closeGroup? group
    cases pair
    have absent : findMatch (wholeWord? old) (some '{') body = none := by
      rw [findMatch_wholeWord? (by decide) (by decide : (none : Option Char).any isWord = false)]
      simpa [hasMatch] using plain _ group
    simp only at whole
    subst whole
    obtain ⟨rest', rfl, tail⟩ := renamed.behind word absent
    rw [closeGroup?_swap group]
    exact .some ⟨rfl, tail⟩

/-- The blocks of both texts are the same, if the old word does not occur in them. -/
theorem blocksFrom (renamed : Renamed old new before as bs) {keyword keyword' : List Char}
    (becomes : Becomes old new keyword keyword') (text : IsWordText keyword) (line : Nat)
    (plain : ∀ block ∈ (blocksFrom keyword 0 line before as).blocks,
      hasMatch (wholeWord? old) block.body = false) :
    blocksFrom keyword 0 line before as = blocksFrom keyword' 0 line before bs := by
  have text' := becomes.isWordText word' text
  -- The induction is on the length, since a block is passed over as a whole.
  generalize size : as.length = n
  induction n using Nat.strong_induction_on generalizing as bs line before with
  | _ n ih =>
    have later {cs ds : List Char} {before : Option Char} (rest : Renamed old new before cs ds)
        (shorter : cs.length < n) (line : Nat) := fun plain =>
      ih cs.length shorter rest line plain rfl
    obtain ⟨none, none'⟩ | ⟨⟨name, inside⟩, ⟨_, inside'⟩, header, header', rfl, behind⟩ :=
      eq_of_rel (renamed.blockHeader? word word' becomes text)
    · have anchored := anchored_blockHeader? text
      have anchored' := anchored_blockHeader? text'
      cases renamed with
      | nil => rfl
      | char outside rest =>
        rw [blocksFrom_cons _ _ _ _ _ none] at plain ⊢
        rw [blocksFrom_cons _ _ _ _ _ none']
        exact later rest (by rw [← size]; simp) _ plain
      | @run _ run cs ds inside other unused stops rest =>
        have held := List.length_pos_of_ne_nil inside.1
        rw [anchored.blocksFrom_run inside none] at plain ⊢
        rw [anchored'.blocksFrom_run inside none']
        exact later rest (by simp at size; omega) _ plain
      | @word _ gap cs ds free differs headed rest =>
        have outside := outside_of_headed? headed
        rw [anchored.blocksFrom_run word none,
          blocksFrom_cons _ _ _ _ _ (anchored.outside outside _)] at plain ⊢
        rw [anchored'.blocksFrom_run word' none',
          blocksFrom_cons _ _ _ _ _ (anchored'.outside outside _)]
        exact later rest (by simp at size; omega) _ plain
    · have bodies (found : List Char × List Char)
          (group : Text.closeGroup? '{' inside = some found) :
          hasMatch (wholeWord? old) found.1 = false := by
        obtain ⟨matched, -, all⟩ := blocksFrom_found header group line
        rw [all] at plain
        exact plain _ (.head _)
      obtain ⟨none, none'⟩ | ⟨⟨body, tail⟩, ⟨_, tail'⟩, group, group', rfl, rest⟩ :=
        eq_of_rel (behind.closeGroup? word word' bodies)
      · rw [blocksFrom_unclosed header none, blocksFrom_unclosed header' none']
      · obtain ⟨matched, whole, first⟩ := blocksFrom_found header group line
        obtain ⟨matched', whole', second⟩ := blocksFrom_found header' group' line
        -- The headers may differ in their words, not in their lines.
        have lines : (matched ++ ['}']).count '\n' = (matched' ++ ['}']).count '\n' := by
          have total := renamed.count_feeds word word'
          rw [whole, whole'] at total
          simp only [List.count_append, List.count_cons, rest.count_feeds word word'] at total ⊢
          omega
        have shorter : tail.length < n := by
          rw [← size, whole]
          simp
          omega
        rw [first] at plain
        have next := later rest shorter _ fun block member => plain block (.tail _ member)
        rw [first, second, ← lines]
        simp only [next]

theorem isSome_findMatch {α β : Type} {here : Option Char → List Char → Option α}
    {there : Option Char → List Char → Option β} (anchored : Anchored here)
    (anchored' : Anchored there)
    (each : ∀ {before as bs}, Renamed old new before as bs →
      (here before as).isSome = (there before bs).isSome)
    (renamed : Renamed old new before as bs) :
    (findMatch here before as).isSome = (findMatch there before bs).isSome := by
  -- Only places at the front of a word are left to compare, and there both searches agree.
  have front {before : Option Char} {as bs : List Char} (renamed : Renamed old new before as bs)
      (later : here before as = none → there before bs = none →
        (findMatch here before as).isSome = (findMatch there before bs).isSome) :
      (findMatch here before as).isSome = (findMatch there before bs).isSome := by
    have same := each renamed
    by_cases found : (here before as).isSome = true
    · rw [findMatch_of_front found, findMatch_of_front (same ▸ found)]
    · exact later (by simpa using found) (by simpa [same] using found)
  induction renamed with
  | nil before => exact each (.nil before)
  | char outside rest ih =>
    rw [findMatch, findMatch, anchored.outside outside, anchored'.outside outside]
    exact ih
  | run text other unused stops rest ih =>
    refine front (rest.run text other unused stops) fun none none' => ?_
    rw [anchored.findMatch_run text none, anchored'.findMatch_run text none']
    exact ih
  | word free differs headed rest ih =>
    have outside := outside_of_headed? headed
    refine front (rest.word free differs headed) fun none none' => ?_
    rw [anchored.findMatch_run word none, anchored'.findMatch_run word' none', findMatch, findMatch,
      anchored.outside outside, anchored'.outside outside]
    exact ih

/-- Under the old keyword nothing is left in the second text. -/
theorem findMatch_old (renamed : Renamed old new before as bs) :
    findMatch (Text.blockHeader? old) before bs = none := by
  have anchored := anchored_blockHeader? word
  induction renamed with
  | nil => exact blockHeader?_nil
  | char outside rest ih =>
    rw [findMatch, anchored.outside outside]
    exact ih
  | run text other unused stops rest ih =>
    rw [anchored.findMatch_run text (blockHeader?_other word text (rest.stops word word' stops) other)]
    exact ih
  | word free differs headed rest ih =>
    have outside := outside_of_headed? headed
    rw [anchored.findMatch_run word'
      (blockHeader?_other word word' (by simpa using outside) (Ne.symm differs)), findMatch,
      anchored.outside outside]
    exact ih

end Renamed

end SchemaAtlas.Text
