import SchemaAtlas.Proofs.Text.Strings
import SchemaAtlas.Proofs.Text.Words

/-!
A place in a text at which a block is open. Whatever is put there, as long as its brackets and
strings are closed, becomes a part of the body of that block and changes no other block.
-/

set_option autoImplicit false

namespace SchemaAtlas.Text

section Headers

variable {keyword cs : List Char} {before : Option Char} {found : List Char × List Char}

theorem blockHeader?_append (header : blockHeader? keyword before cs = some found)
    (rest : List Char) :
    blockHeader? keyword before (cs ++ rest) = some (found.1, found.2 ++ rest) := by
  have free := isFree_of_blockHeader? header
  obtain ⟨gap, space, held, blank, named, spaced, rfl⟩ := parts_of_blockHeader? header
  have whole : keyword ++ (gap ++ (found.1 ++ (space ++ '{' :: found.2))) ++ rest =
      keyword ++ (gap ++ (found.1 ++ (space ++ '{' :: (found.2 ++ rest)))) := by simp
  rw [whole, blockHeader?_header keyword held blank named spaced free]

structure IsHead (keyword head gap name space : List Char) : Prop where
  held : gap ≠ []
  blank : ∀ c ∈ gap, isBlank c = true
  named : IsWordText name
  spaced : ∀ c ∈ space, isBlank c = true
  text : head = keyword ++ (gap ++ (name ++ space))

theorem exists_isHead (header : blockHeader? keyword before cs = some found) :
    ∃ head gap space, IsHead keyword head gap found.1 space ∧ cs = head ++ '{' :: found.2 := by
  obtain ⟨gap, space, held, blank, named, spaced, rfl⟩ := parts_of_blockHeader? header
  exact ⟨_, gap, space, ⟨held, blank, named, spaced, rfl⟩, by simp⟩

namespace IsHead

variable {head gap name space : List Char}

theorem blockHeader? (isHead : IsHead keyword head gap name space) (free : IsFree before)
    (rest : List Char) :
    Text.blockHeader? keyword before (head ++ '{' :: rest) = some (name, rest) := by
  have header :=
    blockHeader?_header keyword isHead.held isHead.blank isHead.named isHead.spaced free rest
  rw [← header, isHead.text]
  simp

theorem words (isHead : IsHead keyword head gap name space) (word : IsWordText keyword) :
    Text.words head = [keyword, name] := by
  obtain ⟨held, blank, named, spaced, rfl⟩ := isHead
  have behind : Text.words (name ++ space) = [name] := by
    cases space with
    | nil => rw [List.append_nil, words_word named]
    | cons c space =>
      have gone := words_gap (fun d member => spaced d (.tail _ member)) ([] : List Char)
      rw [List.append_nil, words_nil] at gone
      rw [words_break (spaced c (.head _)), words_word named, gone, List.append_nil]
  obtain ⟨c, gap, rfl⟩ := List.exists_cons_of_ne_nil held
  rw [List.cons_append, words_break (blank c (.head _)), words_word word,
    words_gap fun d member => blank d (.tail _ member), behind, List.singleton_append]

theorem isWord_or_isBlank (isHead : IsHead keyword head gap name space) (word : IsWordText keyword)
    {c : Char} (member : c ∈ head) : isWord c = true ∨ isBlank c = true := by
  rw [isHead.text, List.mem_append, List.mem_append, List.mem_append] at member
  rcases member with inKeyword | inGap | inName | inSpace
  · exact .inl (word.2 c inKeyword)
  · exact .inr (isHead.blank c inGap)
  · exact .inl (isHead.named.2 c inName)
  · exact .inr (isHead.spaced c inSpace)

theorem unbraced (isHead : IsHead keyword head gap name space) (word : IsWordText keyword) :
    '{' ∉ head := fun member =>
  absurd (isHead.isWord_or_isBlank word member) (by decide)

/-- A header does not begin in front of the whole of another one, since it has as many words. -/
theorem ne_append (isHead : IsHead keyword head gap name space) (word : IsWordText keyword)
    {front other gap' name' space' : List Char} (isHead' : IsHead keyword other gap' name' space')
    (some : front ≠ []) (free : IsFree front.getLast?) : head ≠ front ++ other := by
  intro same
  obtain ⟨start, last, rfl⟩ := List.eq_nil_or_concat front |>.resolve_left some
  rw [List.concat_eq_append, List.getLast?_concat] at free
  rw [List.concat_eq_append, List.append_assoc, List.singleton_append] at same
  have present : last ∈ head := by simp [same]
  have solid : isBlank last = true := by
    have outside := (free last rfl).1
    simpa [outside] using isHead.isWord_or_isBlank word present
  have counts := congrArg (fun cs => (Text.words cs).length) same
  simp only [words_break solid, isHead.words word, isHead'.words word, List.length_append] at counts
  have none : Text.words start = [] := by
    rw [← List.length_eq_zero_iff]
    simpa using counts
  -- The front begins with the keyword, so that it cannot be without words.
  obtain ⟨k, ending, rfl⟩ := List.exists_cons_of_ne_nil word.1
  have inside := word.2 k (.head _)
  rw [isHead.text] at same
  cases start with
  | nil =>
    obtain ⟨rfl, -⟩ := List.cons.inj same
    rw [isBlank_of_isWord inside] at solid
    cases solid
  | cons d start =>
    obtain ⟨rfl, -⟩ := List.cons.inj same
    exact words_ne_nil (isBlank_of_isWord inside) (.head _) none

end IsHead

/-- No header begins in front of another one and reaches into it. -/
theorem blockHeader?_apart (word : IsWordText keyword) {front rest : List Char} (held : front ≠ [])
    (begins : (blockHeader? keyword front.getLast? rest).isSome = true) (before : Option Char) :
    blockHeader? keyword before (front ++ rest) =
      (blockHeader? keyword before front).map fun found => (found.1, found.2 ++ rest) := by
  cases alone : blockHeader? keyword before front with
  | some found => rw [blockHeader?_append alone, Option.map_some]
  | none =>
    rw [Option.map_none, Option.eq_none_iff_forall_ne_some]
    intro first longer
    obtain ⟨second, header⟩ := Option.isSome_iff_exists.mp begins
    have free := isFree_of_blockHeader? longer
    obtain ⟨head, gap, space, isHead, whole⟩ := exists_isHead longer
    obtain ⟨other, gap', space', isHead', rfl⟩ := exists_isHead header
    have clear := isHead.unbraced word
    by_cases brace : '{' ∈ front
    next =>
      -- The brace of the first header stands in front of the second one, where that header is found.
      obtain ⟨start, tail, rfl, unbraced⟩ := List.eq_append_cons_of_mem brace
      rw [List.append_assoc, List.cons_append] at whole
      rw [((append_cons_inj unbraced clear).mp whole).1, isHead.blockHeader? free] at alone
      cases alone
    next =>
      have clear' : '{' ∉ front ++ other := by
        rw [List.mem_append]
        exact not_or.mpr ⟨brace, isHead'.unbraced word⟩
      rw [← List.append_assoc] at whole
      have heads := ((append_cons_inj clear' clear).mp whole).1
      exact isHead.ne_append word isHead' held (isFree_of_blockHeader? header) heads.symm

end Headers

section Groups

/-- Where no bracket closes the outermost of the pending ones up to some place, that one is found
behind the place at the same distance from the end, whatever closed text is put there. -/
theorem closeOffset?_insert {pending : List Char} (held : pending ≠ []) {front : List (Option Char)}
    (opened : closeOffset? pending front = none) (rest : List (Option Char)) :
    (∀ cs, IsNested cs → closeOffset? pending (front ++ (outline .code cs ++ rest)) = none) ∨
      ∃ n, ∀ cs, IsNested cs → closeOffset? pending (front ++ (outline .code cs ++ rest)) =
        some (front.length + (cs.length + n)) := by
  -- General in the pending brackets, since the places in front add to them.
  induction front generalizing pending with
  | nil =>
    obtain ⟨last, pending, rfl⟩ := List.exists_cons_of_ne_nil held
    cases behind : closeOffset? (last :: pending) rest with
    | none =>
      refine .inl fun cs nested => ?_
      rw [List.nil_append, nested.closeOffset?_outline, behind, Option.map_none]
    | some n =>
      refine .inr ⟨n, fun cs nested => ?_⟩
      rw [List.nil_append, nested.closeOffset?_outline, behind, Option.map_some, List.length_nil]
      congr 1
      omega
  | cons place front ih =>
    rw [closeOffset?_cons] at opened
    cases step : closeStep pending place with
    | none =>
      refine .inl fun cs _ => ?_
      rw [List.cons_append, closeOffset?_cons, step]
    | some goes =>
      cases goes with
      | none =>
        rw [step] at opened
        cases opened
      | some later =>
        rw [step] at opened
        rcases ih (closeStep_pending held step).1 (Option.map_eq_none_iff.mp opened) with
          never | ⟨n, ends⟩
        · refine .inl fun cs nested => ?_
          rw [List.cons_append, closeOffset?_cons, step]
          simp [never cs nested]
        · refine .inr ⟨n, fun cs nested => ?_⟩
          rw [List.cons_append, closeOffset?_cons, step]
          simp only [ends cs nested, Option.map_some, List.length_cons]
          congr 1
          omega

/-- A group that is open at some place ends at one and the same bracket behind it, whatever closed
text is put there. -/
theorem closeGroup?_insert {inside : List Char} (opened : closeGroup? '{' inside = none)
    (code : Mode.code.run inside = .code) (rest : List Char) :
    (∀ cs, IsNested cs → closeGroup? '{' (inside ++ (cs ++ rest)) = none) ∨
      ∃ piece tail, ∀ cs, IsNested cs →
        closeGroup? '{' (inside ++ (cs ++ rest)) = some (inside ++ (cs ++ piece), tail) := by
  have pair : closerOf? '{' = some '}' := rfl
  have never : closeOffset? ['}'] (outline .code inside) = none := by
    cases ends : closeOffset? ['}'] (outline .code inside) with
    | none => rfl
    | some n => simp [closeGroup?, pair, ends] at opened
  have whole (cs : List Char) (nested : IsNested cs) : outline .code (inside ++ (cs ++ rest)) =
      outline .code inside ++ (outline .code cs ++ outline .code rest) := by
    rw [outline_append, outline_append, code, nested.run]
  rcases closeOffset?_insert (List.cons_ne_nil '}' []) never (outline .code rest) with
    none | ⟨n, ends⟩
  · refine .inl fun cs nested => ?_
    simp [closeGroup?, pair, whole cs nested, none cs nested]
  · refine .inr ⟨rest.take n, rest.drop (n + 1), fun cs nested => ?_⟩
    have front : (inside ++ (cs ++ rest)).take (inside.length + (cs.length + n)) =
        inside ++ (cs ++ rest.take n) := by
      rw [List.take_length_add_append, List.take_length_add_append]
    have behind : (inside ++ (cs ++ rest)).drop (inside.length + (cs.length + n) + 1) =
        rest.drop (n + 1) := by
      rw [Nat.add_assoc, Nat.add_assoc, List.drop_length_add_append, List.drop_length_add_append]
    simp [closeGroup?, pair, whole cs nested, ends cs nested, front, behind]

end Groups

section Blocks

variable {keyword : String} {cs inside : List Char} {earlier : List Block} {name : String}

/-- At the end of a text a block is open, behind some blocks that are closed: its name, and what its
body holds so far, which ends outside strings. -/
structure Opened (keyword : String) (cs : List Char) (earlier : List Block) (name : String)
    (inside : List Char) : Prop where
  header : ∃ lead header, cs = lead ++ header ∧ blocks keyword lead = { blocks := earlier } ∧
    blockHeader? keyword.toList lead.getLast? header = some (name.toList, inside)
  opened : closeGroup? '{' inside = none
  code : Mode.code.run inside = .code

/-- Closed text on one line that is put where a block is open stands in the body of that block, and
no other block is changed. -/
theorem Opened.blocks_insert (open_ : Opened keyword cs earlier name inside)
    (word : IsWordText keyword.toList) (rest : List Char) :
    (∃ line, ∀ piece, IsNested piece → '\n' ∉ piece → blocks keyword (cs ++ (piece ++ rest)) =
        { blocks := earlier, unclosed := some { name, line } }) ∨
      ∃ line last later unclosed, ∀ piece, IsNested piece → '\n' ∉ piece →
        blocks keyword (cs ++ (piece ++ rest)) =
          { blocks := earlier ++ { name, body := inside ++ (piece ++ last), line } :: later
            unclosed } := by
  obtain ⟨⟨lead, header, rfl, closed, found⟩, opened, code⟩ := open_
  have longer (more : List Char) := blockHeader?_append found more
  -- The search goes through the text in front of the header as if nothing followed.
  have behind (more : List Char) : blocks keyword (lead ++ header ++ more) =
      let next := blocksFrom keyword.toList 0 (1 + lead.count '\n') lead.getLast? (header ++ more)
      { blocks := earlier ++ next.blocks, unclosed := next.unclosed } := by
    have none : (blocks keyword lead).unclosed = none := by rw [closed]
    have apart (before : Option Char) (front : List Char) (held : front ≠ [])
        (suffix : front <:+ lead) : blockHeader? keyword.toList before (front ++ (header ++ more)) =
          (blockHeader? keyword.toList before front).map
            fun found => (found.1, found.2 ++ (header ++ more)) := by
      obtain ⟨start, rfl⟩ := suffix
      rw [List.getLast?_append_of_ne_nil _ held] at longer
      exact blockHeader?_apart word held (by rw [longer more]; rfl) before
    rw [List.append_assoc, blocks, blocksFrom_apart apart none, Option.or_none]
    rw [show blocksFrom keyword.toList 0 1 Option.none lead = _ from closed]
  rcases closeGroup?_insert opened code rest with never | ⟨last, tail, ends⟩
  · refine .inl ⟨1 + lead.count '\n', fun piece nested _ => ?_⟩
    rw [behind, blocksFrom_unclosed (longer _) (never piece nested)]
    simp
  · let line := 1 + lead.count '\n'
    let lines := line + ((header ++ rest).count '\n' - tail.count '\n')
    let next := blocksFrom keyword.toList 0 lines (some '}') tail
    refine .inr ⟨line, last, next.blocks, next.unclosed, fun piece nested unbroken => ?_⟩
    obtain ⟨matched, split, scan⟩ := blocksFrom_found (longer _) (ends piece nested) line
    have counts := congrArg (List.count '\n') split
    rw [List.append_cons, List.count_append, List.count_append, List.count_append,
      List.count_eq_zero.mpr unbroken] at counts
    have place : line + (matched ++ ['}']).count '\n' = lines := by
      simp only [lines, List.count_append]
      simp only [List.count_append] at counts
      omega
    rw [behind, scan, place]
    simp [next]

section Quiet

variable {c d : Char} {quiet : List Char}

theorem findMatch_break {keyword : List Char} (word : IsWordText keyword)
    (breaks : breaksHeader c = true) (before : Option Char) (cs rest : List Char) :
    (findMatch (blockHeader? keyword) before (cs ++ c :: rest)).isSome =
      ((findMatch (blockHeader? keyword) before cs).isSome ||
        (findMatch (blockHeader? keyword) (some c) rest).isSome) := by
  induction cs generalizing before with
  | nil =>
    have none : findMatch (blockHeader? keyword) before [] = none := Headerless.nil.findMatch before
    have here := blockHeader?_break rest word breaks before []
    rw [show blockHeader? keyword before [] = Option.none from none, Option.map_none,
      List.nil_append] at here
    rw [none, List.nil_append, findMatch, here]
    rfl
  | cons e cs ih =>
    have here := blockHeader?_break rest word breaks before (e :: cs)
    rw [List.cons_append] at here ⊢
    rw [findMatch, findMatch, here]
    cases blockHeader? keyword before (e :: cs) with
    | some found => rfl
    | none => exact ih (some e)

/-- Whether a text holds a header does not depend on what stands between two characters that have no
place in one, if that has no braces. -/
theorem hasBlockHeader_quiet (word : IsWordText keyword.toList) (breaks : breaksHeader c = true)
    (breaks' : breaksHeader d = true) (braceless : '{' ∉ quiet) (rest : List Char) :
    hasBlockHeader keyword (cs ++ c :: (quiet ++ d :: rest)) =
      (hasBlockHeader keyword cs ||
        (findMatch (blockHeader? keyword.toList) (some d) rest).isSome) := by
  rw [hasBlockHeader, hasMatch, findMatch_break word breaks, findMatch_break word breaks',
    (Headerless.of_braceless braceless).findMatch, hasBlockHeader, hasMatch]
  rfl

theorem blocks_quiet (word : IsWordText keyword.toList) (closed : (blocks keyword cs).unclosed = none)
    (breaks : breaksHeader c = true) (breaks' : breaksHeader d = true) (braceless : '{' ∉ quiet)
    (unbroken : '\n' ∉ quiet) (rest : List Char) :
    blocks keyword (cs ++ c :: (quiet ++ d :: rest)) =
      let next := blocksFrom keyword.toList 0 (1 + (cs ++ [c]).count '\n' + [d].count '\n') (some d)
        rest
      { blocks := (blocks keyword cs).blocks ++ next.blocks, unclosed := next.unclosed } := by
  have quietly : findMatch (blockHeader? keyword.toList) (some c) quiet = none :=
    (Headerless.of_braceless braceless).findMatch _
  have lines : (quiet ++ [d]).count '\n' = [d].count '\n' := by
    rw [List.count_append, List.count_eq_zero.mpr unbroken, Nat.zero_add]
  rw [blocks, blocksFrom_break word breaks closed, blocksFrom_quiet word quietly breaks', lines]
  rfl

end Quiet

end Blocks

end SchemaAtlas.Text
