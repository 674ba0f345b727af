import SchemaAtlas.Blocks.Schema
import SchemaAtlas.Proofs.Blocks.Bodies
import SchemaAtlas.Proofs.Blocks.Lines
import SchemaAtlas.Proofs.Blocks.Model

/-!
The blocks of a written schema found again: the text passes every check, and each of the two
keywords finds the blocks that it began, in order.
-/

set_option autoImplicit false

namespace SchemaAtlas.Blocks

open Text

theorem keywordWithName?_front {keywords : List String} {keyword gap name : List Char}
    (member : String.ofList keyword ∈ keywords) (word : IsWordText keyword) {before : Option Char}
    (free : IsFree before) (held : gap ≠ []) (blank : ∀ c ∈ gap, isBlank c = true)
    (named : IsWordText name) (rest : List Char) :
    (keywordWithName? keywords before (keyword ++ (gap ++ (name ++ rest)))).isSome = true := by
  have edge : atWordEdge before (keyword ++ (gap ++ (name ++ rest))).head? = true := by
    obtain ⟨some, inside⟩ := word
    have outside := any_of_isFree free
    cases keyword with
    | nil => exact absurd rfl some
    | cons k keyword => simp [atWordEdge, outside, inside k (.head _)]
  have word : (takeWord? (name ++ rest)).isSome = true :=
    takeWord?_isSome_append (by rw [← List.append_nil name, takeWord?_append named (by simp)]; rfl) rest
  have named := dropBlanks?_gap held blank (isBlank_head?_word named rest)
  rw [keywordWithName?, if_pos edge, List.findSome?_isSome_iff]
  exact ⟨String.ofList keyword, member, by simpa [named] using word⟩

end SchemaAtlas.Blocks

namespace SchemaAtlas.Blocks.Written

open Text

namespace Block

variable {block : Block}

theorem text_eq_blockText (block : Block) (indent : Nat) :
    block.text indent =
      blockText block.keyword block.name.toList (bodyText indent block.lines) := rfl

theorem WellFormed.inline_body (formed : block.WellFormed) (indent : Nat) :
    IsInline (bodyText indent block.lines) := by
  refine inline_bodyText (fun item member => ?_) indent
  have here := formed.isItem item member
  exact ⟨here.toIsInline, here.apart⟩

/-- Nothing in front of the end of a block looks like a block of the other keyword. -/
theorem WellFormed.headerless (formed : block.WellFormed) {keyword : List Char}
    (known : IsBlockKeyword keyword) (other : keyword ≠ block.keyword) (indent : Nat) :
    Headerless keyword
      (headerText block.keyword block.name.toList ++ '{' :: bodyText indent block.lines) := by
  have header := Headerless.header known.isWordText block.isBlockKeyword.isWordText.2
    (not_suffix_keyword known other) formed.isWordText_name
    (formed.sealed_body known other indent).headerless
  simpa [headerText] using header

/-- A block of the keyword itself is found. -/
theorem WellFormed.blocksFrom_same (formed : block.WellFormed) (indent line : Nat)
    {before : Option Char} (free : FreeBefore before) (rest : List Char) :
    ∃ next, blocksFrom block.keyword 0 line before (block.text indent ++ rest) =
      { blocks := { name := block.name, body := bodyText indent block.lines, line } ::
          (blocksFrom block.keyword 0 next (some '\n') rest).blocks
        unclosed := (blocksFrom block.keyword 0 next (some '\n') rest).unclosed } := by
  obtain ⟨next, found⟩ := blocksFrom_blockText formed.isWordText_name free
    block.isBlockKeyword.isWordText (formed.inline_body indent) line rest
  rw [text_eq_blockText, found, String.ofList_toList]
  exact ⟨_, rfl⟩

end Block

variable {blocks : List Block}

theorem uncommented_text (formed : ∀ block ∈ blocks, block.WellFormed) (indent : Nat) :
    Uncommented .code (text indent blocks) := by
  induction blocks with
  | nil => trivial
  | cons block blocks ih =>
    have here := formed block (.head _)
    rw [text, List.flatMap_cons, Block.text_eq_blockText]
    exact uncommented_blockText block.isBlockKeyword.isWordText here.isWordText_name
      (here.inline_body indent) (ih fun other member => formed other (.tail _ member))

theorem bracesBalanced_text (formed : ∀ block ∈ blocks, block.WellFormed) (indent : Nat) :
    bracesBalanced (text indent blocks) = true := by
  induction blocks with
  | nil => rfl
  | cons block blocks ih =>
    have here := formed block (.head _)
    rw [text, List.flatMap_cons, Block.text_eq_blockText, bracesBalanced_blockText
      block.isBlockKeyword.isWordText here.isWordText_name (here.inline_body indent)]
    exact ih fun other member => formed other (.tail _ member)

/-- A block as a search finds it. -/
def Block.Found (indent : Nat) (block : Block) (found : Text.Block) : Prop :=
  found.name = block.name ∧ found.body = bodyText indent block.lines

theorem blocksFrom_text (formed : ∀ block ∈ blocks, block.WellFormed) {keyword : List Char}
    (known : IsBlockKeyword keyword) (indent line : Nat) {before : Option Char}
    (free : Block.FreeBefore before) :
    (blocksFrom keyword 0 line before (text indent blocks)).unclosed = none ∧
      List.Forall₂ (Block.Found indent) (blocks.filter (·.keyword = keyword))
        (blocksFrom keyword 0 line before (text indent blocks)).blocks := by
  induction blocks generalizing line before with
  | nil => exact ⟨rfl, .nil⟩
  | cons block blocks ih =>
    have here := formed block (.head _)
    have later := ih fun other member => formed other (.tail _ member)
    rw [text, List.flatMap_cons, ← text]
    by_cases same : block.keyword = keyword
    · subst same
      obtain ⟨next, found⟩ := here.blocksFrom_same indent line free (text indent blocks)
      obtain ⟨closed, rest⟩ := later next (.inr rfl)
      rw [found, List.filter_cons_of_pos (by simp)]
      exact ⟨closed, .cons ⟨rfl, rfl⟩ rest⟩
    · obtain ⟨next, found⟩ := Block.blocksFrom_other known.isWordText
        (here.headerless known (Ne.symm same) indent) line before (text indent blocks)
      obtain ⟨closed, rest⟩ := later next (.inr rfl)
      rw [Block.text_eq_blockText, found, List.filter_cons_of_neg (by simp [same])]
      exact ⟨closed, rest⟩

theorem looksLike_text (formed : WellFormed blocks) (indent : Nat) :
    looksLike {} (text indent blocks) = true := by
  obtain ⟨block, blocks, rfl⟩ := List.exists_cons_of_ne_nil formed.some
  have here := formed.each block (.head _)
  have whole : text indent (block :: blocks) = block.keyword ++ ([' '] ++ (block.name.toList ++
      ' ' :: '{' :: (bodyText indent block.lines ++ '}' :: '\n' :: text indent blocks))) := by
    simp [text, Block.text]
  have member : String.ofList block.keyword ∈ ["model", "enum"] := by
    rcases block.isBlockKeyword with same | same <;> rw [same] <;> decide
  refine findMatch_of_front ?_
  rw [whole]
  exact keywordWithName?_front member block.isBlockKeyword.isWordText isFree_none
    (List.cons_ne_nil ' ' []) (by decide) here.isWordText_name _

/-- What is read from the blocks of a keyword, when each of them can be read. -/
theorem readBlocks_text {α : Type} {read : Text.Block → Except Fault α}
    {related : Block → α → Prop} (formed : ∀ block ∈ blocks, block.WellFormed) {keyword : String}
    (known : IsBlockKeyword keyword.toList) (indent : Nat)
    (each : ∀ block ∈ blocks, block.keyword = keyword.toList → ∀ found, block.Found indent found →
      ∃ a, read found = .ok a ∧ related block a) :
    ∃ as, readBlocks keyword read (text indent blocks) = .ok as ∧
      List.Forall₂ related (blocks.filter (·.keyword = keyword.toList)) as := by
  obtain ⟨closed, found⟩ := blocksFrom_text formed known indent 1 (.inl rfl)
  obtain ⟨as, mapped, pairs⟩ := exists_mapM (f := read) found fun block member => by
    rw [List.mem_filter, decide_eq_true_eq] at member
    exact each block member.1 member.2
  refine ⟨as, ?_, pairs⟩
  simp only [readBlocks, Text.blocks, closed, mapped]
  rfl

theorem filter_enumerations (blocks : List Block) :
    blocks.filter (·.keyword = "enum".toList) = (enumerations blocks).map .enumeration := by
  induction blocks with
  | nil => rfl
  | cons block blocks ih =>
    cases block with
    | enumeration enum => exact congrArg (Block.enumeration enum :: ·) ih
    | model declared => exact ih

theorem filter_models (blocks : List Block) :
    blocks.filter (·.keyword = "model".toList) = (models blocks).map .model := by
  induction blocks with
  | nil => rfl
  | cons block blocks ih =>
    cases block with
    | enumeration enum => exact ih
    | model declared => exact congrArg (Block.model declared :: ·) ih

/-- The enumerations of a written schema read back. -/
theorem readBlocks_enumerations (formed : ∀ block ∈ blocks, block.WellFormed) (indent : Nat) :
    readBlocks "enum" (fun block => .ok { name := block.name, values := enumValues block.body })
      (text indent blocks) = .ok (enumerations blocks) := by
  have each : ∀ block ∈ blocks, block.keyword = "enum".toList → ∀ found, block.Found indent found →
      ∃ enum, (.ok { name := found.name, values := enumValues found.body } : Except Fault _) =
        .ok enum ∧ block = .enumeration enum := by
    intro block member keyword found ⟨name, body⟩
    cases block with
    | model declared => cases keyword
    | enumeration enum =>
      refine ⟨_, rfl, ?_⟩
      rw [name, body, Block.lines, enumValues_bodyText (formed _ member).2]
      rfl
  obtain ⟨enums, read, pairs⟩ := readBlocks_text formed (.inl rfl) indent each
  rw [filter_enumerations, List.forall₂_map_left_iff] at pairs
  have same := pairs.imp fun enum found same => Block.enumeration.inj same
  rw [List.forall₂_eq_eq_eq] at same
  rw [read, same]

theorem names_of_reads {written : List Model} {models : List Blocks.Model}
    (pairs : List.Forall₂ Model.Reads written models) :
    models.map (·.name) = written.map (·.name) :=
  (map_eq_map_of_forall₂ pairs fun _ _ pair => pair.name.symm).symm

/-- The models of a written schema read back. -/
theorem readBlocks_models (formed : ∀ block ∈ blocks, block.WellFormed) (indent : Nat) :
    ∃ found, readBlocks "model" Model.ofBlock? (text indent blocks) = .ok found ∧
      List.Forall₂ Model.Reads (models blocks) found := by
  have each : ∀ block ∈ blocks, block.keyword = "model".toList → ∀ found, block.Found indent found →
      ∃ model, Blocks.Model.ofBlock? found = .ok model ∧
        ∀ written, block = .model written → written.Reads model := by
    intro block member keyword found ⟨name, body⟩
    cases block with
    | enumeration enum => cases keyword
    | model declared =>
      obtain ⟨model, read, reads⟩ :=
        Model.WellFormed.ofBlock?_bodyText (formed _ member) indent name body
      refine ⟨model, read, ?_⟩
      rintro _ ⟨⟩
      exact reads
  obtain ⟨found, read, pairs⟩ := readBlocks_text formed (.inr rfl) indent each
  rw [filter_models, List.forall₂_map_left_iff] at pairs
  exact ⟨found, read, pairs.imp fun written model reads => reads written rfl⟩

end SchemaAtlas.Blocks.Written

namespace SchemaAtlas.Blocks

/-- The models and enumerations of a written schema collected. -/
theorem collect_text {blocks : List Written.Block} (formed : Written.WellFormed blocks)
    (indent : Nat) :
    (collect {} (Written.text indent blocks)).Returns fun (models, enums) =>
      List.Forall₂ Written.Model.Reads (Written.models blocks) models ∧
        enums = Written.enumerations blocks := by
  obtain ⟨declared, read, pairs⟩ := Written.readBlocks_models formed.each indent
  have enums := Written.readBlocks_enumerations formed.each indent
  have distinct : (declared.map (·.name)).Nodup := by
    rw [Written.names_of_reads pairs]
    exact formed.distinct
  have kept := Keyed.merge_of_nodup distinct
  exact ⟨_, collect_eq_ok.mpr ⟨enums, declared, read, kept.symm⟩, pairs, rfl⟩

end SchemaAtlas.Blocks
