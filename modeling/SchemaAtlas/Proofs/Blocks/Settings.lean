import SchemaAtlas.Proofs.Blocks.Order
import SchemaAtlas.Proofs.Text.Strings

/-!
Strings that settings are assigned. A schema reads the same whatever such a string holds, as long as
no header of a model or an enumeration stands in it; a block that begins in a string is read.
-/

set_option autoImplicit false

namespace SchemaAtlas.Blocks

open Text

variable {keywords : PrismaKeywords}

theorem keywordWithName?_of_blockHeader? {keywords : List String} {keyword : String}
    (member : keyword ∈ keywords) (word : IsWordText keyword.toList) {before : Option Char}
    {cs : List Char} (header : (blockHeader? keyword.toList before cs).isSome = true) :
    (keywordWithName? keywords before cs).isSome = true := by
  obtain ⟨found, header⟩ := Option.isSome_iff_exists.mp header
  have free := isFree_of_blockHeader? header
  obtain ⟨gap, space, held, blank, named, -, rfl⟩ := parts_of_blockHeader? header
  exact keywordWithName?_front (by rwa [String.ofList_toList]) word free held blank named _

theorem looksLike_of_blocks (known : AreKeywords keywords) {kind : Kind} {cs : List Char}
    (some : (blocks (kind.keyword keywords) cs).blocks ≠ []) : looksLike keywords cs = true := by
  have member : kind.keyword keywords ∈ [keywords.modelKeyword, keywords.enumKeyword] := by
    cases kind <;> simp [Kind.keyword]
  have header : (findMatch (blockHeader? (kind.keyword keywords).toList) none cs).isSome = true := by
    by_contra nowhere
    rw [Option.not_isSome_iff_eq_none] at nowhere
    have nothing : blocks (kind.keyword keywords) cs = {} := blocksFrom_eq_empty_iff.mpr nowhere
    exact some (by rw [nothing])
  exact findMatch_imp
    (fun _ _ => keywordWithName?_of_blockHeader? member (known.word kind)) header

theorem collect_congr {cs other : List Char}
    (same : ∀ kind : Kind, blocks (kind.keyword keywords) cs = blocks (kind.keyword keywords) other) :
    (collect keywords cs).outcome = (collect keywords other).outcome := by
  have models : blocks keywords.modelKeyword cs = blocks keywords.modelKeyword other := same .model
  have enums : blocks keywords.enumKeyword cs = blocks keywords.enumKeyword other :=
    same .enumeration
  simp only [collect_outcome, readBlocks_eq, models, enums]

theorem blocks_of_collect {cs : List Char} {models : List Model} {enums : List Enumeration}
    (collected : (collect keywords cs).outcome = .ok (models, enums)) :
    ((blocks keywords.modelKeyword cs).blocks = [] ↔ models = []) ∧
      enums = (blocks keywords.enumKeyword cs).blocks.map enumerationOf := by
  obtain ⟨all, declared, read, rfl⟩ := collect_eq_ok.mp collected
  obtain ⟨mapped, -⟩ := readBlocks_eq_ok.mp read
  obtain ⟨mapped', -⟩ := readBlocks_eq_ok.mp all
  constructor
  next =>
    have names : declared.map (·.name) = (blocks keywords.modelKeyword cs).blocks.map (·.name) :=
      map_of_mapM mapped fun _ _ found => Model.ofLines?_name found
    -- A later model takes the place of an earlier one of its name, so that only whether there are
    -- models can be told from the blocks.
    rw [Keyed.merge_eq_nil_iff, ← List.map_eq_nil_iff (f := (·.name)), ← names, List.map_eq_nil_iff]
  next =>
    have all : (blocks keywords.enumKeyword cs).blocks.mapM (fun block => .ok (enumerationOf block)) =
        (.ok ((blocks keywords.enumKeyword cs).blocks.map enumerationOf) : Except Fault _) :=
      List.mapM_pure
    exact Except.ok.inj (mapped'.symm.trans all)

/-- The words that blocks of settings begin with. -/
def settingWords : List String := ["datasource", "generator"]

/-- A text that ends with the name of a setting and an equals sign. -/
def EndsAssigning (cs : List Char) : Prop :=
  ∃ before key gap space, cs = before ++ (key ++ (gap ++ '=' :: space)) ∧ IsWordText key ∧
    (∀ c ∈ gap, isBlank c = true) ∧ ∀ c ∈ space, isBlank c = true

/-- The text in front of a string that a setting is assigned. -/
structure IsSetting (keywords : PrismaKeywords) (before : List Char) : Prop where
  /-- The string stands outside comments and other strings. -/
  code : (Region.text .code).run before = .text .code
  /-- A block of settings is open there. -/
  assigned : ∃ word ∈ settingWords, ∃ front header name inside,
    stripComments before = front ++ header ∧
      blockHeader? word.toList front.getLast? header = some (name, inside) ∧
      closeGroup? '{' inside = none ∧ EndsAssigning inside
  /-- No model and no enumeration is open there. -/
  closed (kind : Kind) : (blocks (kind.keyword keywords) (stripComments before)).unclosed = none

/-- A string in which neither a model nor an enumeration begins. -/
def Harmless (keywords : PrismaKeywords) (content : List Char) : Prop :=
  ∀ kind : Kind, hasBlockHeader (kind.keyword keywords) content = false

theorem blocks_withString (known : AreKeywords keywords) {before content other : List Char}
    (setting : IsSetting keywords before) (plain : IsContent content) (plain' : IsContent other)
    (harmless : Harmless keywords content) (harmless' : Harmless keywords other)
    (after : List Char) (kind : Kind) :
    blocks (kind.keyword keywords) (stripComments (withString before content after)) =
      blocks (kind.keyword keywords) (stripComments (withString before other after)) := by
  have word := known.word kind
  have closed := setting.closed kind
  rw [stripComments_withString setting.code plain, stripComments_withString setting.code plain',
    blocks, blocks, blocksFrom_withString word closed plain (harmless kind),
    blocksFrom_withString word closed plain' (harmless' kind)]

theorem bracesBalanced_setting {before content : List Char} (setting : IsSetting keywords before)
    (plain : IsContent content) (after : List Char) :
    bracesBalanced (stripComments (withString before content after)) =
      bracesBalanced (stripComments before ++ stripComments after) := by
  have code : Mode.code.run (stripComments before) = .code :=
    (run_stripFrom (.text .code) before).trans (by rw [setting.code]; rfl)
  rw [stripComments_withString setting.code plain, bracesBalanced_withString code plain]

variable {R : Type}

def Kind.count (schema : Schema R) : Kind → Nat
  | .model => schema.tables.length
  | .enumeration => schema.enums.length

variable [Coordinate R]

theorem count_eq_zero_iff {config : Config R} {draws : Nat → R} {text : List Char}
    {schema : Schema R} (read : (readSchema config draws text).outcome = .ok schema) (kind : Kind) :
    kind.count schema = 0 ↔
      (blocks (kind.keyword config.prismaKeywords) (stripComments text)).blocks = [] := by
  obtain ⟨-, -, models, enums, collected, read⟩ := readSchema_eq_ok.mp read
  obtain ⟨listed, same⟩ := blocks_of_collect collected
  obtain ⟨tables, mapped, parts⟩ := assemble_eq_ok (assemble_of_schemaOf collected read).2
  cases kind with
  | model =>
    have named (model : Model) (table : Table Unit)
        (made : model.ownTable config models (enums.map (·.name)) = .ok table) :
        table.id = model.name := by
      obtain ⟨columns, -, rfl⟩ := map_eq_ok.mp made
      rfl
    have kept : schema.tables.map Table.unplaced = tables := congrArg Schema.tables parts
    have length := congrArg List.length (map_of_mapM mapped named)
    rw [← kept, List.length_map, List.length_map, List.length_map] at length
    rw [Kind.count, length, List.length_eq_zero_iff, ← listed]
    rfl
  | enumeration =>
    have kept : schema.enums = enums := congrArg Schema.enums parts
    rw [Kind.count, kept, same, List.length_map, List.length_eq_zero_iff]
    rfl

theorem exists_count_ne_zero {config : Config R} {draws : Nat → R} {text : List Char}
    {schema : Schema R} (read : (readSchema config draws text).outcome = .ok schema) :
    ∃ kind : Kind, kind.count schema ≠ 0 := by
  have held := ((readSchema_keeps config draws text).value schema read).1
  simp only [Schema.isEmpty, Bool.and_eq_false_iff, List.isEmpty_eq_false_iff] at held
  rcases held with tables | enums
  · exact ⟨.model, mt List.length_eq_zero_iff.mp tables⟩
  · exact ⟨.enumeration, mt List.length_eq_zero_iff.mp enums⟩

/-- What is read with one harmless string is read with every other one. -/
theorem readSchema_withString (config : Config R) (known : AreKeywords config.prismaKeywords)
    (draws : Nat → R) {before content other : List Char}
    (setting : IsSetting config.prismaKeywords before) (plain : IsContent content)
    (plain' : IsContent other) (harmless : Harmless config.prismaKeywords content)
    (harmless' : Harmless config.prismaKeywords other) {after : List Char} {schema : Schema R}
    (read : (readSchema config draws (withString before content after)).outcome = .ok schema) :
    (readSchema config draws (withString before other after)).outcome = .ok schema := by
  have same := blocks_withString known setting plain plain' harmless harmless' after
  -- The keyword that lets a text pass the first gate can stand in the string. What was read has a
  -- block, though, and its header is found around the other string as well.
  obtain ⟨kind, some⟩ := exists_count_ne_zero read
  rw [Ne, count_eq_zero_iff read, same] at some
  obtain ⟨-, balanced, models, enums, collected, read⟩ := readSchema_eq_ok.mp read
  refine readSchema_eq_ok.mpr ⟨looksLike_of_blocks known some, ?_, models, enums, ?_, read⟩
  · rwa [bracesBalanced_setting setting plain', ← bracesBalanced_setting setting plain]
  · rw [← collect_congr same, collected]

theorem count_of_header {config : Config R} (known : AreKeywords config.prismaKeywords)
    {draws : Nat → R} {before content : List Char} (setting : IsSetting config.prismaKeywords before)
    (plain : IsContent content) {kind : Kind}
    (header : hasBlockHeader (kind.keyword config.prismaKeywords) content = true)
    {after : List Char} {schema : Schema R}
    (read : (readSchema config draws (withString before content after)).outcome = .ok schema) :
    kind.count schema ≠ 0 := by
  have found := findMatch_withString (known.word kind) header none (stripComments before)
    (stripComments after)
  rw [← stripComments_withString setting.code plain] at found
  have closed : (blocks (kind.keyword config.prismaKeywords)
      (stripComments (withString before content after))).unclosed = none := by
    obtain ⟨-, -, models, enums, collected, -⟩ := readSchema_eq_ok.mp read
    obtain ⟨closed, closed'⟩ := closed_of_collect collected
    cases kind with
    | model => exact closed
    | enumeration => exact closed'
  intro none
  rw [count_eq_zero_iff read] at none
  -- No block is open in a text that can be read, so that without blocks nothing would be found.
  have nothing : blocks (kind.keyword config.prismaKeywords)
      (stripComments (withString before content after)) = {} :=
    congrArg₂ BlockScan.mk none closed
  have nowhere := blocksFrom_eq_empty_iff.mp nothing
  rw [nowhere] at found
  cases found

def Kind.other : Kind → Kind
  | .model => .enumeration
  | .enumeration => .model

section Empty

def emptyBlock (kind : Kind) : Declaration where
  kind
  name := "T"
  body := []

def settingFront : List Char := "datasource d \x7b\n u = ".toList

/-- The end of a block of settings, and an empty block behind it. -/
def settingRest (keywords : PrismaKeywords) (kind : Kind) : List Char :=
  ['\n', '}', '\n'] ++ (emptyBlock kind).text keywords

theorem wellFormed_emptyBlock (keywords : PrismaKeywords) (kind : Kind) :
    (emptyBlock kind).WellFormed keywords where
  lead := by simp [emptyBlock]
  held := by simp [emptyBlock]
  gap := by
    show ∀ c ∈ [' '], isBlank c = true
    decide
  name := by
    show IsWordText "T".toList
    decide
  space := by
    show ∀ c ∈ [' '], isBlank c = true
    decide
  nested := .nil
  uncommented := trivial
  headerless kind := hasBlockHeader_nil _
  tail := by
    show ∀ c ∈ ['\n'], isBlank c = true
    decide

theorem blocks_settingFront (known : AreKeywords keywords)
    (apart : ∀ kind : Kind, kind.keyword keywords ∉ settingWords) (kind : Kind) :
    blocks (kind.keyword keywords) settingFront = {} := by
  have differs : "datasource".toList ≠ (kind.keyword keywords).toList := fun same =>
    apart kind (String.ext same ▸ .head _)
  have body : Headerless (kind.keyword keywords).toList "\n u = ".toList :=
    .of_braceless (by decide)
  have quiet : findMatch (blockHeader? (kind.keyword keywords).toList) none
      ("datasource".toList ++ ([' '] ++ (['d'] ++ ([' '] ++ '{' :: "\n u = ".toList)))) = none :=
    findMatch_header (known.word kind) (by decide) differs (by decide) (by decide) (by decide)
      (by decide) (body.findMatch none)
  exact blocksFrom_eq_empty_iff.mpr quiet

theorem isSetting_front (known : AreKeywords keywords)
    (apart : ∀ kind : Kind, kind.keyword keywords ∉ settingWords) :
    IsSetting keywords settingFront where
  code := by decide
  assigned := by
    refine ⟨"datasource", .head _, [], settingFront, ['d'], "\n u = ".toList, ?_, ?_, ?_, ?_⟩
    · decide
    · decide
    · decide
    · exact ⟨['\n', ' '], ['u'], [' '], [' '], by decide, by decide, by decide, by decide⟩
  closed kind := by
    have plain : stripComments settingFront = settingFront := by decide
    rw [plain, blocks_settingFront known apart]

theorem blocks_emptySetting (known : AreKeywords keywords)
    (apart : ∀ kind : Kind, kind.keyword keywords ∉ settingWords) (kind other : Kind) :
    (blocks (kind.keyword keywords)
      (withString settingFront [] (settingRest keywords other))).unnumbered =
        { blocks := blocksOf kind [emptyBlock other] } := by
  have word := known.word kind
  have front : blocksFrom (kind.keyword keywords).toList 0 1 none settingFront = {} :=
    blocks_settingFront known apart kind
  have closed : (blocksFrom (kind.keyword keywords).toList 0 1 none settingFront).unclosed = none := by
    rw [front]
  have nothing : hasMatch (blockHeader? (kind.keyword keywords).toList) [] = false :=
    hasBlockHeader_nil _
  have outside {c : Char} (outside : isWord c = false) (line : Nat) (before : Option Char)
      (cs : List Char) :=
    blocksFrom_cons _ line before c cs (blockHeader?_outside word outside before cs)
  rw [blocks, blocksFrom_withString word closed (by decide) nothing, front]
  simp only [List.nil_append]
  -- The search steps over the rest of the settings and meets the block at a free place.
  rw [settingRest, List.cons_append, List.cons_append, List.cons_append, List.nil_append,
    outside (by decide), outside (by decide), outside (by decide),
    blocksFrom_free (isFree_of_isBlank (by decide))]
  refine (blocksFrom_unnumbered _ _ _ 1 _ _).trans ?_
  exact (wellFormed_emptyBlock keywords other).blocks_text known kind

theorem stripComments_emptySetting (known : AreKeywords keywords) (kind : Kind) :
    stripComments (withString settingFront [] (settingRest keywords kind)) =
      withString settingFront [] (settingRest keywords kind) := by
  have block : Uncommented .code ((emptyBlock kind).text keywords ++ []) :=
    (wellFormed_emptyBlock keywords kind).uncommented_append known trivial
  rw [List.append_nil] at block
  have rest : Uncommented .code (settingRest keywords kind) := .quiet_append (by decide) block
  exact stripComments_eq_self (.quiet_append (by decide) ⟨by simp, by simp, rest⟩)

theorem bracesBalanced_emptySetting (known : AreKeywords keywords) (kind : Kind) :
    bracesBalanced (withString settingFront [] (settingRest keywords kind)) = true := by
  have settings : IsNested ("datasource d ".toList ++ ('{' :: "\n u = \n".toList ++ '}' :: ['\n'])) :=
    (IsNested.of_plain (by decide)).append
      (.group rfl (.of_plain (by decide)) (.of_plain (by decide)))
  have whole := settings.append ((wellFormed_emptyBlock keywords kind).nested_text known)
  rw [bracesBalanced_withString (by decide) (by decide)]
  exact whole.bracesBalanced

omit [Coordinate R] in
theorem gather_emptyBlock (config : Config R) (kind : Kind) : ∃ declared listed,
    gather (blocksOf .model [emptyBlock kind]) (blocksOf .enumeration [emptyBlock kind]) =
        .ok (declared, listed) ∧
      ¬ (declared.isEmpty && listed.isEmpty) = true ∧
      ∃ parts, assemble config declared listed = .ok parts := by
  cases kind with
  | model => exact ⟨[{ name := "T", line := 0 }], [], rfl, by decide, _, rfl⟩
  | enumeration => exact ⟨[], [{ name := "T" }], rfl, by decide, _, rfl⟩

/-- A text with an empty block and a setting whose string is empty declares that block and nothing
else. -/
theorem readSchema_emptySetting (config : Config R) (known : AreKeywords config.prismaKeywords)
    (apart : ∀ kind : Kind, kind.keyword config.prismaKeywords ∉ settingWords) (draws : Nat → R)
    (kind : Kind) : ∃ schema, (readSchema config draws
      (withString settingFront [] (settingRest config.prismaKeywords kind))).outcome = .ok schema := by
  have found (other : Kind) := blocks_emptySetting known apart other kind
  have gathered := collect_eq_gather (found .model) (found .enumeration)
  obtain ⟨declared, listed, same, some, parts, assembled⟩ := gather_emptyBlock config kind
  rw [same] at gathered
  obtain ⟨⟨models, enums⟩, collected, same⟩ := map_eq_ok.mp gathered
  obtain ⟨rfl, rfl⟩ := Prod.mk.inj same
  rw [assemble_unnumbered] at assembled
  rw [List.isEmpty_map] at some
  have distinct : Distinct models := (collect_keeps _ _).value _ collected
  obtain ⟨schema, read, -⟩ := schemaOf_of_assemble config draws distinct some assembled
  have listed : (blocks (kind.keyword config.prismaKeywords) (withString settingFront []
      (settingRest config.prismaKeywords kind))).blocks ≠ [] := by
    intro none
    have bare := congrArg BlockScan.blocks (found kind)
    simp [BlockScan.unnumbered, none, blocksOf, emptyBlock] at bare
  refine ⟨schema, readSchema_eq_ok.mpr ?_⟩
  rw [stripComments_emptySetting known]
  exact ⟨looksLike_of_blocks known listed, bracesBalanced_emptySetting known kind, models, enums,
    collected, read⟩

end Empty

/-- The string of a setting can hold anything without an effect on the schema, except for the headers
of models and enumerations. -/
theorem harmless_iff_reads_alike (config : Config R) (known : AreKeywords config.prismaKeywords)
    (apart : ∀ kind : Kind, kind.keyword config.prismaKeywords ∉ settingWords) (draws : Nat → R)
    {content : List Char} (plain : IsContent content) :
    Harmless config.prismaKeywords content ↔
      ∀ before after other, IsSetting config.prismaKeywords before → IsContent other →
        Harmless config.prismaKeywords other →
          (readSchema config draws (withString before content after)).outcome.toOption =
            (readSchema config draws (withString before other after)).outcome.toOption := by
  constructor
  next =>
    intro harmless before after other setting plain' harmless'
    refine Option.ext fun schema => ?_
    rw [toOption_eq_some, toOption_eq_some]
    exact ⟨readSchema_withString config known draws setting plain plain' harmless harmless',
      readSchema_withString config known draws setting plain' plain harmless' harmless⟩
  next =>
    intro alike kind
    by_contra header
    rw [Bool.not_eq_false] at header
    have setting := isSetting_front known apart
    -- Behind the string stands a block of the other kind only.
    obtain ⟨schema, read⟩ := readSchema_emptySetting config known apart draws kind.other
    have same := alike settingFront (settingRest config.prismaKeywords kind.other) [] setting
      (by decide) fun kind => hasBlockHeader_nil _
    rw [toOption_eq_some.mpr read, toOption_eq_some] at same
    refine count_of_header known setting plain header same ?_
    have found := blocks_emptySetting known apart kind kind.other
    have none : blocksOf kind [emptyBlock kind.other] = [] := by cases kind <;> rfl
    rw [none] at found
    rw [count_eq_zero_iff read, stripComments_emptySetting known]
    exact List.map_eq_nil_iff.mp (congrArg BlockScan.blocks found)

/-- The text in front of the address of a database, behind a setting of another block. -/
def addressFront : List Char :=
  "generator client \x7b\n provider = 'js' // model\n\x7d\n".toList ++
    "datasource db \x7b\n url = ".toList

def addressRest : List Char := "\n\x7d\nmodel User \x7b\n id Int @id\n\x7d\n".toList

/-- An address that looks like a comment and has a brace and a keyword. -/
def address : List Char := "db://host/*/\x7d\x7bmodel User".toList

theorem isSetting_addressFront : IsSetting {} addressFront where
  code := by decide
  assigned := by
    refine ⟨"datasource", .head _, "generator client \x7b\n provider = 'js' \n\x7d\n".toList,
      "datasource db \x7b\n url = ".toList, "db".toList, "\n url = ".toList, ?_, ?_, ?_, ?_⟩
    · decide
    · decide
    · decide
    · exact ⟨['\n', ' '], "url".toList, [' '], [' '], by decide, by decide, by decide, by decide⟩
  closed kind := by cases kind <;> decide

theorem settingWords_apart (kind : Kind) : kind.keyword {} ∉ settingWords := by
  cases kind <;> decide

theorem harmless_iff_reads_alike_address :
    IsContent address ∧ Harmless {} address ∧
      (readSchema (Config.default : Config Int) (fun _ => 0)
          (withString addressFront address addressRest)).outcome.toOption =
        (readSchema (Config.default : Config Int) (fun _ => 0)
          (withString addressFront [] addressRest)).outcome.toOption ∧
      (readSchema (Config.default : Config Int) (fun _ => 0)
          (withString addressFront address addressRest)).outcome.toOption.map
            (·.tables.map (·.id)) = some ["User"] := by
  have plain : IsContent address := by decide
  have harmless : Harmless {} address := by
    intro kind
    cases kind <;> decide
  have alike := (harmless_iff_reads_alike (Config.default : Config Int) areKeywords_default
    settingWords_apart (fun _ => 0) plain).mp harmless
  exact ⟨plain, harmless, alike addressFront addressRest [] isSetting_addressFront (by decide)
    fun _ => hasBlockHeader_nil _, by decide +kernel⟩

/-- A string with a model in it adds a table, where an empty string adds none. -/
theorem model_in_string_is_read :
    IsSetting {} addressFront ∧ IsContent "model Ghost \x7b id Int \x7d".toList ∧ IsContent [] ∧
      (readSchema (Config.default : Config Int) (fun _ => 0)
          (withString addressFront "model Ghost \x7b id Int \x7d".toList addressRest)
            ).outcome.toOption.map (·.tables.map (·.id)) = some ["Ghost", "User"] ∧
      (readSchema (Config.default : Config Int) (fun _ => 0)
          (withString addressFront [] addressRest)).outcome.toOption.map
            (·.tables.map (·.id)) = some ["User"] :=
  ⟨isSetting_addressFront, by decide, by decide, by decide +kernel, by decide +kernel⟩

end SchemaAtlas.Blocks
