import SchemaAtlas.Proofs.Blocks.Keywords
import SchemaAtlas.Proofs.Blocks.Refusals
import SchemaAtlas.Proofs.Blocks.Scan

/-!
Schemas whose models begin with another keyword. The structural reading finds in them what it finds
under the default keyword; the coarse reading finds no model at all.
-/

set_option autoImplicit false

namespace SchemaAtlas.Blocks

open Text

variable {as bs : List Char} {keywords : PrismaKeywords} {keyword : String}

/-- The keywords with another one for models. -/
def spelled (keywords : PrismaKeywords) (keyword : String) : PrismaKeywords :=
  { keywords with modelKeyword := keyword }

section Search

variable (models : IsWordText keywords.modelKeyword.toList)
  (enums : IsWordText keywords.enumKeyword.toList) (word : IsWordText keyword.toList)

include models enums word

omit enums in
theorem named?_renamed {before : Option Char}
    (renamed : Renamed keywords.modelKeyword.toList keyword.toList before as bs) :
    (named? as).isSome = (named? bs).isSome := by
  rw [named?, named?]
  obtain ⟨none, none'⟩ | ⟨cs, ds, found, found', _, rest⟩ :=
    eq_of_rel (renamed.dropBlanks? models word)
  · rw [none, none']
  · rw [found, found', Option.bind_some, Option.bind_some, isSome_takeWord?, isSome_takeWord?,
      rest.head?_isWord models word]

theorem keywordWithName?_renamed {before : Option Char}
    (renamed : Renamed keywords.modelKeyword.toList keyword.toList before as bs) :
    (keywordWithName? [keywords.modelKeyword, keywords.enumKeyword] before as).isSome =
      (keywordWithName? [keyword, keywords.enumKeyword] before bs).isSome := by
  have words : ∀ other ∈ [keywords.modelKeyword, keywords.enumKeyword],
      IsWordText other.toList := by simp [models, enums]
  have words' : ∀ other ∈ [keyword, keywords.enumKeyword], IsWordText other.toList := by
    simp [word, enums]
  cases renamed with
  | nil => rw [keywordWithName?_eq_none words (by simp), keywordWithName?_eq_none words' (by simp)]
  | char outside =>
    rw [keywordWithName?_outside words outside, keywordWithName?_outside words' outside]
  | run text old new stops rest =>
    have stops' := rest.stops models word stops
    rw [Bool.eq_iff_iff, keywordWithName?_run words text stops,
      keywordWithName?_run words' text stops', named?_renamed models word rest]
    simp [Ne.symm old, Ne.symm new]
  | @word _ gap cs ds free differs headed rest =>
    -- Both words declare here: each is a keyword of its text, and a name stands behind it.
    have outside := outside_of_headed? headed
    have begins := any_of_isFree free
    have behind : Renamed keywords.modelKeyword.toList keyword.toList none (gap :: cs) (gap :: ds) :=
      rest.char outside
    have name := named?_of_headed? headed
    rw [Bool.eq_iff_iff, keywordWithName?_run words models (by simpa using outside),
      keywordWithName?_run words' word (by simpa using outside),
      ← named?_renamed models word behind]
    simp [begins, name]

theorem looksLike_renamed
    (renamed : Renamed keywords.modelKeyword.toList keyword.toList none as bs) :
    looksLike keywords as = looksLike (spelled keywords keyword) bs := by
  have words : ∀ other ∈ [keywords.modelKeyword, keywords.enumKeyword],
      IsWordText other.toList := by simp [models, enums]
  have words' : ∀ other ∈ [keyword, keywords.enumKeyword], IsWordText other.toList := by
    simp [word, enums]
  exact renamed.isSome_findMatch models word (anchored_keywordWithName? words)
    (anchored_keywordWithName? words') fun renamed =>
      keywordWithName?_renamed models enums word renamed

end Search

/-- Two outcomes that are the same, or both are about the same block that is not closed. -/
inductive Respelled {α : Type} (keyword keyword' : String) : Except Fault α → Except Fault α → Prop
  | same (x : Except Fault α) : Respelled keyword keyword' x x
  | unclosed (block : OpenBlock) : Respelled keyword keyword'
    (.error (unterminated keyword block)) (.error (unterminated keyword' block))

theorem Respelled.bind {α β : Type} {keyword keyword' : String} {x y : Except Fault α}
    (respelled : Respelled keyword keyword' x y) (f : α → Except Fault β) :
    Respelled keyword keyword' (x.bind f) (y.bind f) := by
  cases respelled with
  | same => exact .same _
  | unclosed block => exact .unclosed block

theorem readBlocks_respelled {α : Type} {keyword keyword' : String}
    (read : Block → Except Fault α) (same : blocks keyword as = blocks keyword' bs) :
    Respelled keyword keyword' (readBlocks keyword read as) (readBlocks keyword' read bs) := by
  rw [readBlocks_eq, readBlocks_eq, same]
  cases (blocks keyword' bs).blocks.mapM read with
  | error fault => exact .same _
  | ok found =>
    cases (blocks keyword' bs).unclosed with
    | none => exact .same _
    | some block => exact .unclosed block

theorem collect_respelled
    (models : blocks keywords.modelKeyword as = blocks keyword bs)
    (enums : blocks keywords.enumKeyword as = blocks keywords.enumKeyword bs) :
    Respelled keywords.modelKeyword keyword (collect keywords as).outcome
      (collect (spelled keywords keyword) bs).outcome := by
  have listed {α : Type} (read : Block → Except Fault α) :
      readBlocks keywords.enumKeyword read as = readBlocks keywords.enumKeyword read bs := by
    rw [readBlocks_eq, readBlocks_eq, enums]
  simp only [collect_outcome, spelled, listed]
  generalize readBlocks keywords.enumKeyword _ bs = enums
  cases enums with
  | error fault => exact .same _
  | ok enums => exact (readBlocks_respelled Model.ofBlock? models).bind _

end SchemaAtlas.Blocks

namespace SchemaAtlas

variable {R : Type}

def Config.spelled (config : Config R) (keyword : String) : Config R :=
  { config with prismaKeywords := Blocks.spelled config.prismaKeywords keyword }

namespace Blocks

open Text

variable [Coordinate R] (config : Config R) (draws : Nat → R) (keyword : String)

theorem readTable_spelled : readTable (config.spelled keyword) = readTable config := rfl

theorem readTables_spelled (models enums : List String) (relationships : List Relationship)
    (place : Nat) (rest : List Model) :
    readTables (config.spelled keyword) draws models enums relationships place rest =
      readTables config draws models enums relationships place rest := by
  induction rest generalizing place with
  | nil => rfl
  | cons model rest ih => simp only [readTables, readTable_spelled, ih]

theorem schemaOf_spelled (models : List Model) (enums : List Enumeration) :
    schemaOf (config.spelled keyword) draws models enums = schemaOf config draws models enums := by
  have related : Model.relationships (config.spelled keyword).prismaKeywords =
      Model.relationships config.prismaKeywords := rfl
  simp only [schemaOf, related, readTables_spelled]
  rfl

variable {config keyword}

/-- With another keyword for models, in the text and in the settings, a reading ends as before. -/
theorem readSchema_respelled (keywords : PrismaKeywords) (table : config.prismaKeywords = keywords)
    (known : AreKeywords keywords) (known' : AreKeywords (spelled keywords keyword))
    {text other : List Char}
    (renamed : Renamed keywords.modelKeyword.toList keyword.toList none
      (stripComments text) (stripComments other))
    (apart : bracesBalanced (stripComments text) = true → ∀ kind : Kind,
      ∀ block ∈ (blocks (kind.keyword keywords) (stripComments text)).blocks,
        hasMatch (wholeWord? keywords.modelKeyword.toList) block.body = false) :
    Respelled keywords.modelKeyword keyword (readSchema config draws text).outcome
      (readSchema (config.spelled keyword) draws other).outcome := by
  have word : IsWordText keyword.toList := known'.word .model
  have models := known.word .model
  have enums := known.word .enumeration
  have table' : (config.spelled keyword).prismaKeywords = spelled keywords keyword := by
    rw [Config.spelled, table]
  simp only [readSchema, table, table', schemaOf_spelled,
    ← looksLike_renamed models enums word renamed, ← renamed.bracesBalanced models word]
  split
  next => exact .same _
  next =>
    split
    next => exact .same _
    next balanced =>
      have plain := apart (by simpa using balanced)
      have declared : blocks keywords.modelKeyword (stripComments text) =
          blocks keyword (stripComments other) :=
        renamed.blocksFrom models word .renamed models 1 (plain .model)
      have kept : Becomes keywords.modelKeyword.toList keyword.toList
          keywords.enumKeyword.toList keywords.enumKeyword.toList :=
        .kept (known.apart (by decide : Kind.enumeration ≠ .model))
          (known'.apart (by decide : Kind.enumeration ≠ .model))
      have listed : blocks keywords.enumKeyword (stripComments text) =
          blocks keywords.enumKeyword (stripComments other) :=
        renamed.blocksFrom models word kept enums 1 (plain .enumeration)
      rw [Journaled.bind_outcome, Journaled.bind_outcome]
      exact (collect_respelled declared listed).bind _

namespace Scan

variable {as bs old new : List Char}

theorem anchored_flatBlock? {kind : List Char} (text : IsWordText kind) :
    Anchored (flatBlock? kind) where
  outside outside cs := by rw [flatBlock?, (anchored_blockHeader? text).outside outside]; rfl
  within inside cs := by rw [flatBlock?, (anchored_blockHeader? text).within inside]; rfl

theorem matchesFrom_flatBlock {kind cs rest : List Char} {before : Option Char}
    {block : List Char × List Char} (found : flatBlock? kind before cs = some (block, rest)) :
    matchesFrom (flatBlock? kind) 0 before cs =
      block :: matchesFrom (flatBlock? kind) 0 (some '}') rest := by
  obtain ⟨head, whole⟩ := suffix_of_flatBlock? found
  have split : cs = (head ++ ['}']) ++ rest := by rw [← whole]; simp
  rw [split] at found ⊢
  rw [matchesFrom_append (by simp) found, List.getLast?_concat]

section Flat

variable (word : IsWordText old) (word' : IsWordText new) {kind : List Char}
  (kept : Becomes old new kind kind) (text : IsWordText kind)

include word word' kept text

theorem flatBlock?_renamed {before : Option Char} (renamed : Renamed old new before as bs)
    (plain : ∀ found, flatBlock? kind before as = some found →
      hasMatch (wholeWord? old) found.1.2 = false) :
    SameUpTo old new '}' (flatBlock? kind before as) (flatBlock? kind before bs) := by
  obtain ⟨none, none'⟩ | ⟨⟨name, inside⟩, ⟨_, inside'⟩, header, header', rfl, behind⟩ :=
    eq_of_rel (renamed.blockHeader? word word' kept text)
  · rw [flatBlock?, flatBlock?, none, none']
    exact .none
  · simp only at header header' behind
    -- Such a block goes on to the first closing brace behind its header.
    by_cases closed : '}' ∈ inside
    · obtain ⟨body, rest, rfl, outside⟩ := List.eq_append_cons_of_mem closed
      have found := flatBlock?_header header outside
      have absent : findMatch (wholeWord? old) (some '{') body = none := by
        rw [findMatch_wholeWord? (by decide) (by decide : (none : Option Char).any isWord = false)]
        simpa [hasMatch] using plain _ found
      obtain ⟨rest', rfl, tail⟩ := behind.behind word absent
      rw [found, flatBlock?_header header' outside]
      exact .some ⟨rfl, tail⟩
    · have open' : '}' ∉ inside' := mt (behind.mem_iff word word' (by decide)).mpr closed
      rw [flatBlock?_open header closed, flatBlock?_open header' open']
      exact .none

theorem matchesFrom_renamed {before : Option Char} (renamed : Renamed old new before as bs)
    (plain : ∀ found ∈ matchesFrom (flatBlock? kind) 0 before as,
      hasMatch (wholeWord? old) found.2 = false) :
    matchesFrom (flatBlock? kind) 0 before as = matchesFrom (flatBlock? kind) 0 before bs := by
  have anchored := anchored_flatBlock? text
  -- The induction is on the length, since a block is passed over as a whole.
  generalize size : as.length = n
  induction n using Nat.strong_induction_on generalizing as bs before with
  | _ n ih =>
    have later {cs ds : List Char} {before : Option Char} (rest : Renamed old new before cs ds)
        (shorter : cs.length < n) := fun plain => ih cs.length shorter rest plain rfl
    cases found : flatBlock? kind before as with
    | none =>
      have none' : flatBlock? kind before bs = none := by
        have alike := isSome_eq_of_rel
          (flatBlock?_renamed word word' kept text renamed (by simp [found]))
        simpa [found] using alike.symm
      cases renamed with
      | nil => rfl
      | char outside rest =>
        rw [matchesFrom_cons found] at plain ⊢
        rw [matchesFrom_cons none']
        exact later rest (by rw [← size]; simp) plain
      | @run _ run cs ds inside other unused stops rest =>
        have held := List.length_pos_of_ne_nil inside.1
        rw [anchored.matchesFrom_run inside found] at plain ⊢
        rw [anchored.matchesFrom_run inside none']
        exact later rest (by simp at size; omega) plain
      | @word _ gap cs ds free differs headed rest =>
        have outside := outside_of_headed? headed
        rw [anchored.matchesFrom_run word found,
          matchesFrom_cons (anchored.outside outside _)] at plain ⊢
        rw [anchored.matchesFrom_run word' none', matchesFrom_cons (anchored.outside outside _)]
        exact later rest (by simp at size; omega) plain
    | some block =>
      obtain ⟨block, tail⟩ := block
      have all := matchesFrom_flatBlock found
      rw [all] at plain ⊢
      have related := flatBlock?_renamed word word' kept text renamed fun other same => by
        cases found.symm.trans same
        exact plain _ (.head _)
      rw [found] at related
      cases found' : flatBlock? kind before bs with
      | none =>
        rw [found'] at related
        cases related
      | some other =>
        rw [found'] at related
        obtain ⟨other, tail'⟩ := other
        cases related with
        | some alike =>
          obtain ⟨rfl, rest⟩ := alike
          obtain ⟨head, whole⟩ := suffix_of_flatBlock? found
          have shorter : tail.length < n := by
            rw [← size, ← whole]
            simp
            omega
          rw [matchesFrom_flatBlock found',
            later rest shorter fun other member => plain other (.tail _ member)]

end Flat

/-- Whatever the settings say, this reading looks for models under the default keyword. -/
theorem readSchema_modelless {R : Type} [Coordinate R] (config : Config R) (draws : Nat → R)
    {text : List Char}
    (none : findMatch (blockHeader? ['m', 'o', 'd', 'e', 'l']) none (stripComments text) = none) :
    (readSchema config draws text).outcome = .ok { enums := enums (stripComments text) } := by
  have each (before : Option Char) (cs : List Char)
      (found : (flatBlock? ['m', 'o', 'd', 'e', 'l'] before cs).isSome = true) :
      (blockHeader? ['m', 'o', 'd', 'e', 'l'] before cs).isSome = true := by
    obtain ⟨block, matched⟩ := Option.isSome_iff_exists.mp found
    obtain ⟨named, header, -⟩ := Option.bind_eq_some_iff.mp matched
    rw [header]
    rfl
  -- A block that is found would have a header.
  have nothing : findMatch (flatBlock? ['m', 'o', 'd', 'e', 'l']) Option.none (stripComments text) =
      Option.none := by
    by_contra some
    have header := findMatch_imp each (Option.isSome_iff_ne_none.mpr some)
    rw [none] at header
    cases header
  have models : allMatches (flatBlock? ['m', 'o', 'd', 'e', 'l']) (stripComments text) = [] :=
    matchesFrom_eq_nil_of_findMatch nothing
  refine Journaled.mapFault_outcome_ok.mpr ?_
  rw [scan, models]
  rfl

end Scan

/-- A text without comments in which the models can begin with another keyword: the default one
begins headers only, no block and no enumeration has it in its body, and the other one is free. -/
structure Respellable (keyword : String) (cs : List Char) : Prop
    extends Renamable "model".toList keyword.toList cs where
  word : IsWordText keyword.toList
  differs : keyword ≠ "enum"
  blocks : bracesBalanced cs = true → ∀ kind : Kind, ∀ block ∈ (Text.blocks (kind.keyword {}) cs).blocks,
    hasMatch (wholeWord? "model".toList) block.body = false
  enums : ∀ found ∈ allMatches (Scan.flatBlock? "enum".toList) cs,
    hasMatch (wholeWord? "model".toList) found.2 = false

namespace Respellable

theorem isWordText_model : IsWordText "model".toList := by decide

theorem isWordText_enum : IsWordText "enum".toList := by decide

theorem areKeywords {cs : List Char} (respellable : Respellable keyword cs) :
    AreKeywords (spelled {} keyword) where
  word kind := by
    cases kind with
    | model => exact respellable.word
    | enumeration => exact isWordText_enum
  differ := respellable.differs

variable {text other : List Char} (respellable : Respellable keyword (stripComments text))
  (renamed : stripComments other = renameWord "model".toList keyword.toList (stripComments text))

include respellable renamed

theorem related : Renamed "model".toList keyword.toList none (stripComments text)
    (stripComments other) :=
  renamed ▸ respellable.renamed

theorem blank_iff :
    (∀ c ∈ stripComments text, isBlank c = true) ↔ ∀ c ∈ stripComments other, isBlank c = true :=
  (respellable.related renamed).blank_iff isWordText_model respellable.word

theorem looksLike_eq : looksLike {} (trim (stripComments text)) =
    looksLike (spelled {} keyword) (trim (stripComments other)) := by
  have related := respellable.related renamed
  calc looksLike {} (trim (stripComments text))
    _ = looksLike {} (stripComments text) := looksLike_trim isWordText_model isWordText_enum _
    _ = looksLike (spelled {} keyword) (stripComments other) :=
      looksLike_renamed isWordText_model isWordText_enum respellable.word related
    _ = looksLike (spelled {} keyword) (trim (stripComments other)) :=
      (looksLike_trim respellable.word isWordText_enum _).symm

theorem scan_enums_eq : Scan.enums (stripComments text) = Scan.enums (stripComments other) := by
  have kept : Becomes "model".toList keyword.toList "enum".toList "enum".toList :=
    .kept (by decide) fun same => respellable.differs (String.ext same.symm)
  exact congrArg (List.map _) (Scan.matchesFrom_renamed isWordText_model respellable.word kept
    isWordText_enum (respellable.related renamed) respellable.enums)

variable {R : Type} [Coordinate R] {config : Config R} (draws : Nat → R)

theorem readSchema_ends (table : config.prismaKeywords = {}) :
    Respelled "model" keyword (readSchema config draws text).outcome
      (readSchema (config.spelled keyword) draws other).outcome :=
  readSchema_respelled draws {} table areKeywords_default respellable.areKeywords
    (respellable.related renamed) respellable.blocks

theorem scan_ends :
    (Scan.readSchema (config.spelled keyword) draws other).outcome =
      .ok { enums := Scan.enums (stripComments text) } := by
  rw [respellable.scan_enums_eq renamed]
  exact Scan.readSchema_modelless _ draws
    ((respellable.related renamed).findMatch_old isWordText_model respellable.word)

end Respellable

end Blocks

end SchemaAtlas
