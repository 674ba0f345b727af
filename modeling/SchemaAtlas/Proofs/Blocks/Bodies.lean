import SchemaAtlas.Proofs.Blocks.Scan
import SchemaAtlas.Proofs.Blocks.Written
import SchemaAtlas.Proofs.Text.Blocks
import SchemaAtlas.Proofs.Text.Matches

/-!
One block in front of other text: what the scans for comments, for brackets and for blocks make of
it, whatever its body is made of.
-/

set_option autoImplicit false

namespace SchemaAtlas.Blocks.Written

open Text

/-- The text of a block with a certain body. -/
def blockText (keyword name body : List Char) : List Char :=
  keyword ++ ' ' :: (name ++ ' ' :: '{' :: (body ++ ['}', '\n']))

/-- The text of a block up to its opening bracket. -/
def headerText (keyword name : List Char) : List Char := keyword ++ ' ' :: (name ++ [' '])

/-- What a search for blocks meets in front of a block: nothing, or the end of a line. -/
def Block.FreeBefore (before : Option Char) : Prop := before = none ∨ before = some '\n'

theorem Block.FreeBefore.isFree {before : Option Char} (free : FreeBefore before) :
    IsFree before := by
  rcases free with rfl | rfl
  · exact isFree_none
  · exact isFree_of_isBlank (by decide)

variable {keyword name body : List Char}

theorem blockText_append (keyword name body rest : List Char) :
    blockText keyword name body ++ rest =
      headerText keyword name ++ '{' :: (body ++ '}' :: '\n' :: rest) := by
  simp [blockText, headerText]

section Scans

variable (word : IsWordText keyword) (named : IsWordText name)

include word named

theorem inline_headerText : IsInline (headerText keyword name) := by
  refine .of_calm fun c member => ?_
  simp only [headerText, List.mem_append, List.mem_cons, List.not_mem_nil, or_false] at member
  rcases member with inside | rfl | inside | rfl
  · exact isCalm_of_isWord (word.2 c inside)
  · rfl
  · exact isCalm_of_isWord (named.2 c inside)
  · rfl

theorem uncommented_blockText (inline : IsInline body) {rest : List Char}
    (later : Uncommented .code rest) : Uncommented .code (blockText keyword name body ++ rest) := by
  have behind : Uncommented .code ('}' :: '\n' :: rest) := ⟨by simp, by simp, later⟩
  have inside : Uncommented .code ('{' :: (body ++ '}' :: '\n' :: rest)) := by
    refine ⟨by simp, ?_⟩
    exact inline.uncommented.append (by rw [inline.braceless.run]; exact behind) (by simp)
  have front := inline_headerText word named
  rw [blockText_append]
  exact front.uncommented.append (by rw [front.braceless.run]; exact inside) (by simp)

theorem bracesBalanced_blockText (inline : IsInline body) (rest : List Char) :
    bracesBalanced (blockText keyword name body ++ rest) = bracesBalanced rest := by
  have feed : IsInline ['\n'] := .of_calm (by decide)
  rw [blockText_append, bracesBalanced_block (inline_headerText word named).braceless
    inline.braceless, ← List.singleton_append, Text.bracesBalanced_append feed.braceless]

end Scans

namespace Block

theorem blocksFrom_feed (word : IsWordText keyword) (line : Nat) (before : Option Char)
    (rest : List Char) :
    blocksFrom keyword 0 line before ('\n' :: rest) =
      blocksFrom keyword 0 (line + 1) (some '\n') rest := by
  rw [blocksFrom_cons _ _ _ _ _ (blockHeader?_outside word (by decide) _ _)]
  rfl

theorem matchesFrom_feed (word : IsWordText keyword) (before : Option Char) (rest : List Char) :
    matchesFrom (Scan.flatBlock? keyword) 0 before ('\n' :: rest) =
      matchesFrom (Scan.flatBlock? keyword) 0 (some '\n') rest :=
  matchesFrom_cons (Scan.flatBlock?_eq_none (blockHeader?_outside word (by decide) _ _))

/-- A coarse search finds nothing in front of a closing bracket without a header before it. -/
theorem matchesFrom_headerless (word : IsWordText keyword) {cs : List Char}
    (headerless : Headerless keyword cs) (before : Option Char) (rest : List Char) :
    matchesFrom (Scan.flatBlock? keyword) 0 before (cs ++ '}' :: '\n' :: rest) =
      matchesFrom (Scan.flatBlock? keyword) 0 (some '\n') rest := by
  have closing := blockHeader?_outside (c := '}') word (by decide)
  rw [matchesFrom_quiet, matchesFrom_cons (Scan.flatBlock?_eq_none (closing _ _)), matchesFrom_feed word]
  -- A header that began here would end here too, as none holds a closing bracket.
  intro before c tail suffix
  refine Scan.flatBlock?_eq_none ?_
  rw [blockHeader?_break _ word (by decide), blockHeader?_eq_none before (headerless _ suffix),
    Option.map_none]

/-- A block of another keyword is passed over. -/
theorem blocksFrom_other (word : IsWordText keyword) {other : List Char}
    (headerless : Headerless keyword (headerText other name ++ '{' :: body)) (line : Nat)
    (before : Option Char) (rest : List Char) :
    ∃ next, blocksFrom keyword 0 line before (blockText other name body ++ rest) =
      blocksFrom keyword 0 next (some '\n') rest := by
  have whole : blockText other name body ++ rest =
      (headerText other name ++ '{' :: body) ++ '}' :: '\n' :: rest := by simp [blockText_append]
  rw [whole, blocksFrom_headerless word headerless (by decide), blocksFrom_feed word]
  exact ⟨_, rfl⟩

theorem matchesFrom_other (word : IsWordText keyword) {other : List Char}
    (headerless : Headerless keyword (headerText other name ++ '{' :: body)) (before : Option Char)
    (rest : List Char) :
    matchesFrom (Scan.flatBlock? keyword) 0 before (blockText other name body ++ rest) =
      matchesFrom (Scan.flatBlock? keyword) 0 (some '\n') rest := by
  have whole : blockText other name body ++ rest =
      (headerText other name ++ '{' :: body) ++ '}' :: '\n' :: rest := by simp [blockText_append]
  rw [whole, matchesFrom_headerless word headerless]

end Block

section Found

variable (named : IsWordText name) {before : Option Char} (free : Block.FreeBefore before)

include named free

theorem blockHeader?_blockText (rest : List Char) :
    blockHeader? keyword before (blockText keyword name body ++ rest) =
      some (name, body ++ '}' :: '\n' :: rest) := by
  have one : ∀ c ∈ [' '], isBlank c = true := by decide
  have header := blockHeader?_header keyword (List.cons_ne_nil ' ' []) one named one free.isFree
    (body ++ '}' :: '\n' :: rest)
  simpa [blockText] using header

/-- A block of the keyword itself is found. -/
theorem blocksFrom_blockText (word : IsWordText keyword) (inline : IsInline body) (line : Nat)
    (rest : List Char) :
    ∃ next, blocksFrom keyword 0 line before (blockText keyword name body ++ rest) =
      { blocks := { name := String.ofList name, body, line } ::
          (blocksFrom keyword 0 next (some '\n') rest).blocks
        unclosed := (blocksFrom keyword 0 next (some '\n') rest).unclosed } := by
  obtain ⟨next, found⟩ :=
    blocksFrom_block keyword named inline.nested free.isFree line ('\n' :: rest)
  have whole : blockText keyword name body ++ rest = keyword ++ ' ' :: (name ++ ' ' ::
      '{' :: (body ++ '}' :: '\n' :: rest)) := by simp [blockText]
  rw [whole, found, Block.blocksFrom_feed word]
  exact ⟨_, rfl⟩

/-- A coarse search finds a block up to the first closing bracket. -/
theorem matchesFrom_blockText {front behind : List Char}
    (split : body ++ ['}'] = front ++ '}' :: behind) (closed : '}' ∉ front) (rest : List Char) :
    matchesFrom (Scan.flatBlock? keyword) 0 before (blockText keyword name body ++ rest) =
      (name, front) ::
        matchesFrom (Scan.flatBlock? keyword) 0 (some '}') (behind ++ '\n' :: rest) := by
  have header : blockHeader? keyword before (blockText keyword name body ++ rest) = _ :=
    blockHeader?_blockText named free rest
  have whole : body ++ '}' :: '\n' :: rest = front ++ '}' :: (behind ++ '\n' :: rest) := by
    rw [List.append_cons, split]
    simp
  have pieces : blockText keyword name body ++ rest =
      (headerText keyword name ++ '{' :: front ++ ['}']) ++ (behind ++ '\n' :: rest) := by
    rw [blockText_append, whole]
    simp
  have found : Scan.flatBlock? keyword before (blockText keyword name body ++ rest) =
      some ((name, front), behind ++ '\n' :: rest) :=
    Scan.flatBlock?_header (whole ▸ header) closed
  rw [pieces] at found ⊢
  rw [matchesFrom_append (by simp) found, List.getLast?_concat]

end Found

end SchemaAtlas.Blocks.Written
