import SchemaAtlas.Proofs.Blocks.Collected
import SchemaAtlas.Proofs.Blocks.Locality

/-!
Blocks of different names in one text. In whatever order they stand, all of them can be read or none,
and the schema holds the same tables, relationships and enumerations.
-/

set_option autoImplicit false

namespace SchemaAtlas.Blocks

open Text

/-- What a block declares. -/
inductive Kind
  | model
  | enumeration
  deriving DecidableEq, Repr

/-- The keyword that a block of a kind begins with. -/
def Kind.keyword (keywords : PrismaKeywords) : Kind → String
  | .model => keywords.modelKeyword
  | .enumeration => keywords.enumKeyword

/-- The keywords of blocks are two words. -/
structure AreKeywords (keywords : PrismaKeywords) : Prop where
  word (kind : Kind) : IsWordText (kind.keyword keywords).toList
  differ : keywords.modelKeyword ≠ keywords.enumKeyword

theorem areKeywords_default : AreKeywords {} where
  word kind := by cases kind <;> decide
  differ := by decide

theorem AreKeywords.apart {keywords : PrismaKeywords} (known : AreKeywords keywords)
    {kind other : Kind} (differ : kind ≠ other) :
    (kind.keyword keywords).toList ≠ (other.keyword keywords).toList := by
  intro same
  have same := String.ext same
  cases kind <;> cases other
  · exact differ rfl
  · exact known.differ same
  · exact known.differ same.symm
  · exact differ rfl

/-- A block as it stands in a text, with the blanks around it and in its header. -/
structure Declaration where
  kind : Kind
  name : String
  body : List Char
  lead : List Char := []
  gap : List Char := [' ']
  space : List Char := [' ']
  tail : List Char := ['\n']
  deriving DecidableEq, Repr

namespace Declaration

/-- A block that is complete and has no comment and no further header. -/
structure WellFormed (keywords : PrismaKeywords) (declared : Declaration) : Prop where
  lead : ∀ c ∈ declared.lead, isBlank c = true
  held : declared.gap ≠ []
  gap : ∀ c ∈ declared.gap, isBlank c = true
  name : IsWordText declared.name.toList
  space : ∀ c ∈ declared.space, isBlank c = true
  nested : IsNested declared.body
  uncommented : Uncommented .code declared.body
  headerless (kind : Kind) : hasBlockHeader (kind.keyword keywords) declared.body = false
  tail : ∀ c ∈ declared.tail, isBlank c = true

/-- The text in front of the body of a block. -/
def front (keywords : PrismaKeywords) (declared : Declaration) : List Char :=
  declared.lead ++ ((declared.kind.keyword keywords).toList ++
    (declared.gap ++ (declared.name.toList ++ declared.space)))

def text (keywords : PrismaKeywords) (declared : Declaration) : List Char :=
  declared.front keywords ++ '{' :: (declared.body ++ '}' :: declared.tail)

theorem front_append (keywords : PrismaKeywords) (declared : Declaration) (rest : List Char) :
    declared.front keywords ++ rest = declared.lead ++ ((declared.kind.keyword keywords).toList ++
      (declared.gap ++ (declared.name.toList ++ (declared.space ++ rest)))) := by
  simp [front]

/-- A block ends with a closing brace and blanks. -/
theorem text_eq (keywords : PrismaKeywords) (declared : Declaration) :
    declared.text keywords =
      (declared.front keywords ++ '{' :: declared.body) ++ '}' :: declared.tail := by
  simp [text]

theorem text_append (keywords : PrismaKeywords) (declared : Declaration) (rest : List Char) :
    declared.text keywords ++ rest =
      (declared.front keywords ++ '{' :: declared.body) ++ '}' :: (declared.tail ++ rest) := by
  rw [text_eq, List.append_assoc, List.cons_append]

/-- A block without its place, as it is found. -/
def block (declared : Declaration) : Block where
  name := declared.name
  body := declared.body
  line := 0

end Declaration

/-- The text of some blocks, one behind the other. -/
def texts (keywords : PrismaKeywords) (declared : List Declaration) : List Char :=
  declared.flatMap (·.text keywords)

/-- The blocks of a kind. -/
def blocksOf (kind : Kind) (declared : List Declaration) : List Block :=
  (declared.filter (·.kind = kind)).map Declaration.block

namespace Declaration.WellFormed

variable {keywords : PrismaKeywords} {declared : Declaration}

theorem front (known : AreKeywords keywords) (formed : declared.WellFormed keywords) :
    ∀ c ∈ declared.front keywords, isBlank c = true ∨ isWord c = true := by
  intro c member
  simp only [Declaration.front, List.mem_append] at member
  rcases member with lead | keyword | gap | name | space
  · exact .inl (formed.lead c lead)
  · exact .inr ((known.word _).2 c keyword)
  · exact .inl (formed.gap c gap)
  · exact .inr (formed.name.2 c name)
  · exact .inl (formed.space c space)

theorem nested_text (known : AreKeywords keywords) (formed : declared.WellFormed keywords) :
    IsNested (declared.text keywords) := by
  have front : IsNested (declared.front keywords) := .of_plain fun c member =>
    (formed.front known c member).elim isPlain_of_isBlank isPlain_of_isWord
  have tail : IsNested declared.tail := .of_plain fun c member =>
    isPlain_of_isBlank (formed.tail c member)
  exact front.append (.group rfl formed.nested tail)

theorem uncommented_append (known : AreKeywords keywords) (formed : declared.WellFormed keywords)
    {rest : List Char} (later : Uncommented .code rest) :
    Uncommented .code (declared.text keywords ++ rest) := by
  have tail : Uncommented .code ('}' :: declared.tail ++ rest) := .quiet_append (by
    intro c member
    rcases List.mem_cons.mp member with rfl | inside
    · decide
    · obtain ⟨solid, -, unquoted⟩ := ne_of_isBlank (formed.tail c inside)
      exact ⟨solid, unquoted⟩) later
  have body : Uncommented .code ('{' :: (declared.body ++ ('}' :: declared.tail ++ rest))) :=
    ⟨by simp, formed.uncommented.append (by rwa [formed.nested.run]) (by simp)⟩
  rw [Declaration.text_append, List.append_assoc, List.cons_append, ← List.cons_append]
  refine .quiet_append (fun c member => ?_) body
  rcases formed.front known c member with blank | word
  · obtain ⟨solid, -, unquoted⟩ := ne_of_isBlank blank
    exact ⟨solid, unquoted⟩
  · refine ⟨?_, isQuote_of_isPlain (isPlain_of_isWord word)⟩
    rintro rfl
    cases word

/-- A search for the blocks of a kind finds the block if it is of that kind. -/
theorem blocks_text (known : AreKeywords keywords) (formed : declared.WellFormed keywords)
    (kind : Kind) : (blocks (kind.keyword keywords) (declared.text keywords)).unnumbered =
      { blocks := blocksOf kind [declared] } := by
  have word := known.word kind
  have nothing (line : Nat) :
      blocksFrom (kind.keyword keywords).toList 0 line (some '}') declared.tail = {} := by
    obtain ⟨_, _, -, passed⟩ := blocksFrom_blank word formed.tail line (isFree_brace (.inr rfl)) []
    rwa [List.append_nil] at passed
  by_cases same : declared.kind = kind
  · obtain ⟨line, before, free, passed⟩ := blocksFrom_blank word formed.lead 1 isFree_none
      ((kind.keyword keywords).toList ++ (declared.gap ++ (declared.name.toList ++
        (declared.space ++ '{' :: (declared.body ++ '}' :: declared.tail)))))
    have header := blockHeader?_header (kind.keyword keywords).toList formed.held formed.gap
      formed.name formed.space free (declared.body ++ '}' :: declared.tail)
    obtain ⟨matched, -, found⟩ :=
      blocksFrom_found header (formed.nested.closeGroup?_append rfl declared.tail) line
    rw [blocks, Declaration.text, Declaration.front_append, same, passed, found, nothing]
    simp [BlockScan.unnumbered, blocksOf, same, Block.unnumbered, Declaration.block]
  · have quiet : findMatch (blockHeader? (kind.keyword keywords).toList) none
        (declared.front keywords ++ '{' :: declared.body) = none := by
      have behind := findMatch_header word (known.word declared.kind).2 (known.apart same)
        formed.held formed.gap formed.name formed.space
        (by simpa [hasBlockHeader, hasMatch] using formed.headerless kind)
      rwa [← findMatch_blank word formed.lead, ← Declaration.front_append] at behind
    rw [blocks, Declaration.text_eq, blocksFrom_quiet word quiet (by decide), nothing]
    simp [BlockScan.unnumbered, blocksOf, same]

theorem looksLike_append (known : AreKeywords keywords) (formed : declared.WellFormed keywords)
    (rest : List Char) : looksLike keywords (declared.text keywords ++ rest) = true := by
  have member : String.ofList (declared.kind.keyword keywords).toList ∈
      [keywords.modelKeyword, keywords.enumKeyword] := by
    cases declared.kind <;> simp [Kind.keyword]
  have free : IsFree (declared.lead.getLast?.or none) := by
    rw [Option.or_none]
    intro c last
    exact isFree_of_isBlank (formed.lead c (List.mem_of_getLast? last)) c rfl
  rw [looksLike, hasMatch, Declaration.text, List.append_assoc, Declaration.front_append]
  exact findMatch_behind (findMatch_of_front (keywordWithName?_front member (known.word _) free
    formed.held formed.gap formed.name _))

end Declaration.WellFormed

variable {keywords : PrismaKeywords} {declared : List Declaration}

theorem stripComments_texts (known : AreKeywords keywords)
    (formed : ∀ one ∈ declared, one.WellFormed keywords) :
    stripComments (texts keywords declared) = texts keywords declared := by
  refine stripComments_eq_self ?_
  induction declared with
  | nil => trivial
  | cons one declared ih =>
    exact (formed one (.head _)).uncommented_append known
      (ih fun other member => formed other (.tail _ member))

theorem bracesBalanced_texts (known : AreKeywords keywords)
    (formed : ∀ one ∈ declared, one.WellFormed keywords) :
    bracesBalanced (texts keywords declared) = true := by
  have nested : IsNested (texts keywords declared) :=
    closed_flatMap .nil (fun first second => first.append second) fun one member =>
      (formed one member).nested_text known
  exact nested.bracesBalanced

/-- A search for the blocks of a kind finds those in order. -/
theorem blocks_texts (known : AreKeywords keywords)
    (formed : ∀ one ∈ declared, one.WellFormed keywords) (kind : Kind) :
    (blocks (kind.keyword keywords) (texts keywords declared)).unnumbered =
      { blocks := blocksOf kind declared } := by
  induction declared with
  | nil => rfl
  | cons one declared ih =>
    have here := formed one (.head _)
    have first := here.blocks_text known kind
    have closed := Option.map_eq_none_iff.mp (BlockScan.mk.inj first).2
    rw [Declaration.text_eq] at first closed
    rw [texts, List.flatMap_cons, Declaration.text_append,
      blocks_append (known.word kind) here.tail closed, first, ← texts,
      ih fun other member => formed other (.tail _ member)]
    by_cases same : one.kind = kind <;> simp [blocksOf, same]

/-- What a text declares is gathered from the blocks of both kinds. -/
theorem collect_declared (known : AreKeywords keywords)
    (formed : ∀ one ∈ declared, one.WellFormed keywords) :
    (collect keywords (texts keywords declared)).outcome.map
        (fun found => (found.1.map Model.unnumbered, found.2)) =
      gather (blocksOf .model declared) (blocksOf .enumeration declared) :=
  collect_eq_gather (blocks_texts known formed .model) (blocks_texts known formed .enumeration)

theorem names_blocksOf (kind : Kind) (distinct : (declared.map (·.name)).Nodup) :
    ((blocksOf kind declared).map (·.name)).Nodup := by
  rw [blocksOf, List.map_map]
  exact distinct.sublist (List.filter_sublist.map _)

theorem Model.ofBlock?_name {block : Block} {model : Model}
    (read : (ofBlock? block).map unnumbered = .ok model) : model.name = block.name := by
  obtain ⟨_, found, rfl⟩ := map_eq_ok.mp read
  have name := ofLines?_name found
  exact name

/-- Models of different names are gathered as they are declared. -/
theorem gather_of_distinct {models : List Block} (distinct : (models.map (·.name)).Nodup)
    (enums : List Block) : gather models enums =
      (models.mapM fun block => (Model.ofBlock? block).map Model.unnumbered).map
        fun declared => (declared, enums.map enumerationOf) := by
  rw [gather_eq]
  cases mapped : models.mapM fun block => (Model.ofBlock? block).map Model.unnumbered with
  | error fault => rfl
  | ok declared =>
    have names : declared.map (·.name) = models.map (·.name) :=
      map_of_mapM mapped fun _ _ => Model.ofBlock?_name
    have apart : (declared.map (·.name)).Nodup := by rwa [names]
    rw [Except.map, Except.map, Keyed.merge_of_nodup apart]

/-- Models of different names and enumerations are gathered in any order of their blocks or in none. -/
theorem gather_perm {models others enums listed : List Block} (perm : models.Perm others)
    (same : enums.Perm listed) (distinct : (models.map (·.name)).Nodup)
    {found : List Model × List Enumeration} (gathered : gather models enums = .ok found) :
    ∃ other, gather others listed = .ok other ∧ found.1.Perm other.1 ∧ found.2.Perm other.2 := by
  have apart : (others.map (·.name)).Nodup := (perm.map (·.name)).nodup_iff.mp distinct
  rw [gather_of_distinct distinct] at gathered
  obtain ⟨declared, mapped, rfl⟩ := map_eq_ok.mp gathered
  obtain ⟨again, mapped', moved⟩ := mapM_perm perm mapped
  refine ⟨(again, listed.map enumerationOf), ?_, moved, same.map enumerationOf⟩
  rw [gather_of_distinct apart, mapped']
  rfl

variable {R : Type} [Coordinate R]

/-- Blocks that can be read can be read in any order. -/
theorem readSchema_perm {config : Config R} (known : AreKeywords config.prismaKeywords)
    (draws draws' : Nat → R) {others : List Declaration}
    (formed : ∀ one ∈ declared, one.WellFormed config.prismaKeywords)
    (distinct : (declared.map (·.name)).Nodup) (perm : declared.Perm others) {schema : Schema R}
    (read : (readSchema config draws (texts config.prismaKeywords declared)).outcome = .ok schema) :
    ∃ other, (readSchema config draws' (texts config.prismaKeywords others)).outcome = .ok other ∧
      schema.unplaced.Rearranged other.unplaced := by
  have formed' : ∀ one ∈ others, one.WellFormed config.prismaKeywords := fun one member =>
    formed one (perm.mem_iff.mpr member)
  obtain ⟨looks, -, models, enums, collected, read⟩ := readSchema_eq_ok.mp read
  rw [stripComments_texts known formed] at looks collected
  obtain ⟨some, assembled⟩ := assemble_of_schemaOf collected read
  have listed (kind : Kind) : (blocksOf kind declared).Perm (blocksOf kind others) :=
    (perm.filter _).map _
  have gathered := collect_declared known formed
  rw [collected] at gathered
  obtain ⟨found, gathered, moved, same⟩ := gather_perm (listed .model) (listed .enumeration)
    (names_blocksOf .model distinct) gathered.symm
  rw [← collect_declared known formed'] at gathered
  obtain ⟨⟨models', enums'⟩, collected', rfl⟩ := map_eq_ok.mp gathered
  simp only at moved same
  have apart : Distinct (models.map Model.unnumbered) := by
    have apart : Distinct models := (collect_keeps _ _).value _ collected
    rwa [Distinct, Model.map_name_unnumbered]
  rw [← assemble_unnumbered] at assembled
  obtain ⟨parts, assembled, rearranged⟩ := assemble_perm moved apart same assembled
  rw [assemble_unnumbered] at assembled
  have some' : ¬ (models'.isEmpty && enums'.isEmpty) = true := by
    have first := moved.isEmpty_eq
    have second := same.isEmpty_eq
    rw [List.isEmpty_map, List.isEmpty_map] at first
    rwa [← first, ← second]
  obtain ⟨other, result, rfl⟩ := schemaOf_of_assemble config draws'
    ((collect_keeps _ _).value _ collected') some' assembled
  have looks' : looksLike config.prismaKeywords (texts config.prismaKeywords others) = true := by
    cases others with
    | nil => rwa [perm.eq_nil] at looks
    | cons one others => exact (formed' one (.head _)).looksLike_append known _
  refine ⟨other, readSchema_eq_ok.mpr ?_, rearranged⟩
  rw [stripComments_texts known formed']
  exact ⟨looks', bracesBalanced_texts known formed', models', enums', collected', result⟩

/-- The order of blocks of different names does not matter: no text of them can be read, or the
schemas hold the same in another order. -/
theorem readSchema_rearranged (config : Config R) (known : AreKeywords config.prismaKeywords)
    (draws draws' : Nat → R) {others : List Declaration}
    (formed : ∀ one ∈ declared, one.WellFormed config.prismaKeywords)
    (distinct : (declared.map (·.name)).Nodup) (perm : declared.Perm others) :
    (∃ fault fault',
      (readSchema config draws (texts config.prismaKeywords declared)).outcome = .error fault ∧
        (readSchema config draws' (texts config.prismaKeywords others)).outcome = .error fault') ∨
      ∃ schema other,
        (readSchema config draws (texts config.prismaKeywords declared)).outcome = .ok schema ∧
          (readSchema config draws' (texts config.prismaKeywords others)).outcome = .ok other ∧
          schema.unplaced.Rearranged other.unplaced := by
  cases first : (readSchema config draws (texts config.prismaKeywords declared)).outcome with
  | ok schema =>
    obtain ⟨other, second, rearranged⟩ := readSchema_perm known draws draws' formed distinct perm first
    exact .inr ⟨schema, other, rfl, second, rearranged⟩
  | error fault =>
    cases second : (readSchema config draws' (texts config.prismaKeywords others)).outcome with
    | error fault' => exact .inl ⟨fault, fault', rfl, rfl⟩
    | ok other =>
      have formed' : ∀ one ∈ others, one.WellFormed config.prismaKeywords := fun one member =>
        formed one (perm.mem_iff.mpr member)
      have apart := (perm.map (·.name)).nodup_iff.mp distinct
      obtain ⟨schema, again, -⟩ := readSchema_perm known draws' draws formed' apart perm.symm second
      rw [first] at again
      cases again

/-- A model whose fields have a model and an enumeration as types that stand behind it or before. -/
def post : Declaration where
  kind := .model
  name := "Post"
  body := "\n id Int @id\n authorId Int\n author User\n state State @default".toList ++
    ('(' :: "DRAFT".toList ++ ')' :: ['\n'])

def user : Declaration where
  kind := .model
  name := "User"
  body := "\n id Int @id\n mail String @unique\n".toList

def state : Declaration where
  kind := .enumeration
  name := "State"
  body := " DRAFT SENT ".toList
  gap := [' ', '\t']
  space := []

theorem wellFormed_post : post.WellFormed {} where
  lead := by decide
  held := by decide
  gap := by decide
  name := by decide
  space := by decide
  nested := (IsNested.of_plain (by decide)).append
    (.group rfl (.of_plain (by decide)) (.of_plain (by decide)))
  uncommented := by decide
  headerless kind := by cases kind <;> decide
  tail := by decide

theorem wellFormed_user : user.WellFormed {} where
  lead := by decide
  held := by decide
  gap := by decide
  name := by decide
  space := by decide
  nested := .of_plain (by decide)
  uncommented := by decide
  headerless kind := by cases kind <;> decide
  tail := by decide

theorem wellFormed_state : state.WellFormed {} where
  lead := by decide
  held := by decide
  gap := by decide
  name := by decide
  space := by decide
  nested := .of_plain (by decide)
  uncommented := by decide
  headerless kind := by cases kind <;> decide
  tail := by decide

theorem readSchema_rearranged_post : ∃ schema other : Schema Int,
    (readSchema Config.default (fun _ => 0) (texts {} [post, user, state])).outcome = .ok schema ∧
      (readSchema Config.default (fun _ => 1) (texts {} [state, user, post])).outcome = .ok other ∧
      schema.unplaced.Rearranged other.unplaced := by
  have formed : ∀ one ∈ [post, user, state], one.WellFormed {} := by
    simp [wellFormed_post, wellFormed_user, wellFormed_state]
  have perm : [post, user, state].Perm [state, user, post] := (List.reverse_perm _).symm
  have read : (readSchema (Config.default : Config Int) (fun _ => 0)
      (texts {} [post, user, state])).outcome.toOption.isSome := by
    decide +kernel
  obtain ⟨fault, -, failed, -⟩ | found := readSchema_rearranged (Config.default : Config Int)
    areKeywords_default (fun _ => 0) (fun _ => 1) formed (by decide) perm
  · have failed : (readSchema (Config.default : Config Int) (fun _ => 0)
      (texts {} [post, user, state])).outcome = .error fault := failed
    rw [failed] at read
    cases read
  · exact found

end SchemaAtlas.Blocks
