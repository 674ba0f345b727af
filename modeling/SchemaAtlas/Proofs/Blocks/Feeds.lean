import SchemaAtlas.Extraction.Extract
import SchemaAtlas.Proofs.Blocks.Values
import SchemaAtlas.Proofs.Journaled
import SchemaAtlas.Proofs.Text.FeedSearch

/-!
Schemas written in blocks whose lines end with a carriage return and a line feed. Both readings find
in them what they find where the lines end with line feeds alone.
-/

set_option autoImplicit false

namespace SchemaAtlas.Blocks

open Text

variable {as bs : List Char}

namespace Attribute

theorem head?_refed (refed : Refed as bs) :
    Option.Rel (fun found other => found.1 = other.1 ∧ Refed found.2 other.2)
      (head? as) (head? bs) := by
  have solid (c : Char) (feed : isFeed c = true) : isNameChar c = false := by
    simp only [isFeed, Bool.or_eq_true, decide_eq_true_eq] at feed
    rcases feed with rfl | rfl <;> rfl
  fun_cases head? as with
  | case1 cs =>
    obtain ⟨_, rfl, behind⟩ := refed.of_cons (by decide)
    obtain ⟨ds, rfl, rest⟩ := behind.of_cons (by decide)
    exact rest.takeRun? solid
  | case2 cs single =>
    obtain ⟨ds, rfl, rest⟩ := refed.of_cons (by decide)
    rw [head?]
    · exact rest.takeRun? solid
    · rintro more rfl
      obtain ⟨back, rfl, -⟩ := rest.cons_of (by decide)
      exact single back rfl
  | case3 _ _ single =>
    have none : head? bs = none := by
      rw [head?]
      all_goals
        rintro more rfl
        obtain ⟨back, rfl, -⟩ := refed.cons_of (by decide)
        exact single _ rfl
    rw [none]
    exact .none

end Attribute

theorem enumAttribute?_refed (refed : Refed as bs) :
    Option.Rel Refed (enumAttribute? as) (enumAttribute? bs) := by
  refine rel_bind (Attribute.head?_refed refed) fun (_, rest) (_, other) ⟨_, refed⟩ => ?_
  simp only
  split
  next inner =>
    obtain ⟨inner', rfl, inside⟩ := refed.of_cons (by decide)
    obtain ⟨none, none'⟩ | ⟨cs, ds, found, found', behind⟩ :=
      inside.dropUntil ')' (by decide)
    · simp only [none, none']
      exact .some refed
    · simp only [found, found']
      exact .some behind
  next single =>
    split
    next inner =>
      obtain ⟨back, rfl, -⟩ := refed.cons_of (by decide)
      exact absurd rfl (single back)
    next => exact .some refed

theorem enumValues_refed (refed : Refed as bs) : enumValues as = enumValues bs := by
  have breaks (c : Char) (cs : List Char) (feed : isFeed c = true) :
      enumAttribute? (c :: cs) = none := by
    simp only [isFeed, Bool.or_eq_true, decide_eq_true_eq] at feed
    rcases feed with rfl | rfl <;> rfl
  have replaced := refed.replaceFrom [' '] breaks
    (fun _ _ found => eq_append_of_enumAttribute? found) enumAttribute?_refed none none
  exact congrArg (List.map String.ofList) replaced.words

namespace Model

/-- A model does not depend on the blanks around its lines. -/
theorem ofLines?_congr {name : String} {start : Nat} {as bs : List (List Char)}
    (pairs : List.Forall₂ (fun line other => trim line = trim other) as bs) (line : Nat) :
    ofLines? name start line as = ofLines? name start line bs := by
  induction pairs generalizing line with
  | nil => rfl
  | @cons a b _ _ pair _ ih =>
    have here : Item.ofLine? line a = Item.ofLine? line b := by simp only [Item.ofLine?, pair]
    rw [ofLines?, ofLines?, here, ih]

theorem ofBlock?_refed {block other : Block} (refed : block.Refed other) :
    ofBlock? block = ofBlock? other := by
  rw [ofBlock?, ofBlock?, refed.name, refed.line]
  exact ofLines?_congr refed.body.lines other.line

end Model

theorem keywordWithName?_refed {keywords : List String}
    (words : ∀ keyword ∈ keywords, IsWordText keyword.toList) (refed : Refed as bs)
    (before : Option Char) :
    Option.Rel (fun found other => found.1 = other.1 ∧ Refed found.2 other.2)
      (keywordWithName? keywords before as) (keywordWithName? keywords before bs) := by
  have edge : atWordEdge before as.head? = atWordEdge before bs.head? := by cases refed <;> rfl
  rw [keywordWithName?, keywordWithName?, edge]
  split
  next =>
    refine rel_findSome? fun keyword member => ?_
    refine rel_bind (refed.dropLiteral? fun c inside =>
      isFeed_of_isWord ((words keyword member).2 c inside)) fun _ _ refed => ?_
    exact rel_bind refed.dropBlanks? fun _ _ refed => refed.takeWord?
  next => exact .none

theorem keywordWithName?_outside {keywords : List String}
    (words : ∀ keyword ∈ keywords, IsWordText keyword.toList) {c : Char}
    (outside : isWord c = false) (before : Option Char) (cs : List Char) :
    keywordWithName? keywords before (c :: cs) = none := by
  rw [keywordWithName?]
  split
  next =>
    refine List.findSome?_eq_none_iff.mpr fun keyword member => ?_
    obtain ⟨some, inside⟩ := words keyword member
    cases spelled : keyword.toList with
    | nil => exact absurd spelled some
    | cons k _ =>
      have other : k ≠ c := by
        rintro rfl
        rw [inside k (by simp [spelled])] at outside
        cases outside
      simp [dropLiteral?, other]
  next => rfl

theorem looksLike_refed {keywords : PrismaKeywords}
    (models : IsWordText keywords.modelKeyword.toList)
    (enums : IsWordText keywords.enumKeyword.toList) (refed : Refed as bs) :
    looksLike keywords as = looksLike keywords bs := by
  have words : ∀ keyword ∈ [keywords.modelKeyword, keywords.enumKeyword],
      IsWordText keyword.toList := by simp [models, enums]
  exact isSome_eq_of_rel (refed.findMatch
    (fun before c cs feed => keywordWithName?_outside words (isWord_of_isFeed feed) before cs)
    (fun before _ _ refed => keywordWithName?_refed words refed before) none)

theorem noteMissingBlock_refed {keyword : String} (word : IsWordText keyword.toList)
    (refed : Refed as bs) : noteMissingBlock as keyword = noteMissingBlock bs keyword := by
  have same : hasBlockHeader keyword as = hasBlockHeader keyword bs :=
    isSome_eq_of_rel (refed.findMatch
      (fun before c cs feed => blockHeader?_outside word (isWord_of_isFeed feed) before cs)
      (fun before _ _ refed => refed.blockHeader? word before) none)
  rw [noteMissingBlock, noteMissingBlock, same]

theorem readBlocks_refed {α : Type} {keyword : String} (word : IsWordText keyword.toList)
    {read : Block → Except Fault α}
    (each : ∀ block other, block.Refed other → read block = read other) (refed : Refed as bs) :
    readBlocks keyword read as = readBlocks keyword read bs := by
  obtain ⟨found, unclosed⟩ := refed.blocksFrom word 1 none
  rw [readBlocks, readBlocks]
  simp only [blocks, mapM_eq_of_forall₂ found each, unclosed]

theorem collect_refed {keywords : PrismaKeywords}
    (models : IsWordText keywords.modelKeyword.toList)
    (enums : IsWordText keywords.enumKeyword.toList) (refed : Refed as bs) :
    collect keywords as = collect keywords bs := by
  have declared := readBlocks_refed models (fun _ _ => Model.ofBlock?_refed) refed
  have each (block other : Block) (same : block.Refed other) :
      (.ok { name := block.name, values := enumValues block.body } : Except Fault Enumeration) =
        .ok { name := other.name, values := enumValues other.body } := by
    rw [same.name, enumValues_refed same.body]
  have listed := readBlocks_refed enums each refed
  rw [collect, collect, noteMissingBlock_refed (by decide) refed,
    noteMissingBlock_refed (by decide) refed, declared, listed]

variable {R : Type} [Coordinate R]

theorem readSchema_refed (config : Config R) (draws : Nat → R)
    (models : IsWordText config.prismaKeywords.modelKeyword.toList)
    (enums : IsWordText config.prismaKeywords.enumKeyword.toList) (refed : Refed as bs) :
    readSchema config draws as = readSchema config draws bs := by
  have cleaned := refed.stripComments
  simp only [readSchema, looksLike_refed models enums cleaned, cleaned.bracesBalanced,
    collect_refed models enums cleaned]

namespace Scan

theorem flatBlock?_refed {keyword : List Char} (word : IsWordText keyword) (refed : Refed as bs)
    (before : Option Char) :
    Option.Rel (fun found other =>
      (found.1.1 = other.1.1 ∧ Refed found.1.2 other.1.2) ∧ Refed found.2 other.2)
      (flatBlock? keyword before as) (flatBlock? keyword before bs) := by
  refine rel_bind (refed.blockHeader? word before) fun (name, cs) (_, ds) ⟨named, inside⟩ => ?_
  have body : Refed (cs.takeWhile (· ≠ '}')) (ds.takeWhile (· ≠ '}')) :=
    inside.takeWhile fun c feed => by
      simp only [isFeed, Bool.or_eq_true, decide_eq_true_eq] at feed
      rcases feed with rfl | rfl <;> rfl
  obtain ⟨none, none'⟩ | ⟨behind, behind', found, found', rest⟩ :=
    inside.dropUntil '}' (by decide)
  · simp only [none, none']
    exact .none
  · simp only [found, found']
    exact .some ⟨⟨named, body⟩, rest⟩

theorem suffix_of_flatBlock? {keyword : List Char} {before : Option Char} {cs : List Char}
    {found : (List Char × List Char) × List Char}
    (matched : flatBlock? keyword before cs = some found) : '}' :: found.2 <:+ cs := by
  obtain ⟨⟨name, behind⟩, header, matched⟩ := Option.bind_eq_some_iff.mp matched
  simp only at matched
  split at matched
  next => cases matched
  next closer rest closed =>
    cases matched
    have mark : closer = '}' := by
      have stop := List.head?_dropWhile_not (· ≠ '}') behind
      rw [closed] at stop
      simpa using stop
    have inside : closer :: rest <:+ behind := closed ▸ List.dropWhile_suffix _
    rw [mark] at inside
    exact inside.trans ((List.suffix_cons _ _).trans (suffix_of_blockHeader? header))

theorem allMatches_refed {keyword : List Char} (word : IsWordText keyword) (refed : Refed as bs) :
    List.Forall₂ (fun found other => found.1 = other.1 ∧ Refed found.2 other.2)
      (allMatches (flatBlock? keyword) as) (allMatches (flatBlock? keyword) bs) :=
  refed.matchesFrom '}'
    (fun before c cs feed => by
      rw [flatBlock?, blockHeader?_outside word (isWord_of_isFeed feed)]
      rfl)
    (fun _ _ _ matched => suffix_of_flatBlock? matched)
    (fun before _ _ refed => flatBlock?_refed word refed before) none

theorem columns_refed (types : TypeProvider) (refed : Refed as bs) :
    columns types as = columns types bs := by
  have each (line other : List Char) (same : trim line = trim other) :
      column? types line = column? types other := by simp only [column?, same]
  rw [columns, columns, mapM_eq_of_forall₂ refed.lines each]

theorem readSchema_refed (config : Config R) (draws : Nat → R) (refed : Refed as bs) :
    readSchema config draws as = readSchema config draws bs := by
  have cleaned := refed.stripComments
  have added (state : Registry R × Nat) (model other : List Char × List Char)
      (alike : model.1 = other.1 ∧ Text.Refed model.2 other.2) :
      addModel config draws state model = addModel config draws state other := by
    simp only [addModel, alike.1, columns_refed config.prismaTypes alike.2]
  have model : IsWordText ['m', 'o', 'd', 'e', 'l'] := by decide
  have enum : IsWordText ['e', 'n', 'u', 'm'] := by decide
  have models (state : Registry R × Nat) :=
    foldlM_eq_of_forall₂ (allMatches_refed model cleaned) added state
  have listed : enums (stripComments as) = enums (stripComments bs) :=
    map_eq_map_of_forall₂ (allMatches_refed enum cleaned) fun found other alike => by
      simp only [alike.1, enumValues_refed alike.2]
  simp only [readSchema, scan, models, listed]

end Scan

end SchemaAtlas.Blocks

namespace SchemaAtlas

open Text

variable {R : Type} [Coordinate R]

namespace Extraction

theorem clean?_refed {as bs : List Char} (refed : Refed as bs) :
    (∃ fault, clean? (some as) = .error fault ∧ clean? (some bs) = .error fault) ∨
      ∃ cs ds, clean? (some as) = .ok cs ∧ clean? (some bs) = .ok ds ∧ Refed cs ds := by
  have cleaned := refed.stripComments.trim
  simp only [clean?, refed.trim.isEmpty_eq, cleaned.isEmpty_eq]
  split
  next => exact .inl ⟨_, rfl, rfl⟩
  next =>
    split
    next => exact .inl ⟨_, rfl, rfl⟩
    next => exact .inr ⟨_, _, rfl, rfl, cleaned⟩

theorem ofDialect_refed {config : Config R} {draws : Nat → R} {as bs cs ds : List Char}
    (models : IsWordText config.prismaKeywords.modelKeyword.toList)
    (enums : IsWordText config.prismaKeywords.enumKeyword.toList) (refed : Refed as bs)
    (cleaned : Refed cs ds) (before : Journal) :
    ofDialect config draws .prisma as cs before = ofDialect config draws .prisma bs ds before := by
  have looks := Blocks.looksLike_refed models enums cleaned
  have first : readStructurally config draws .prisma as = readStructurally config draws .prisma bs :=
    Blocks.readSchema_refed config draws models enums refed
  have second (journal : Journal) (fault : Fault) :
      retry config draws .prisma as journal fault = retry config draws .prisma bs journal fault := by
    simp only [retry, readCoarsely, Blocks.Scan.readSchema_refed config _ refed]
  simp only [ofDialect, Detect.looksLike, looks, first, second]
  rfl

end Extraction

/-- Line endings do not matter: with a carriage return in front of every line feed, a text gives the
same extraction, with the same result, notices and random numbers used. -/
theorem extract_withReturns (config : Config R) (draws : Nat → R) (text : List Char)
    (keywords : config.prismaKeywords = {}) :
    extract config draws (some (withReturns text)) (some "prisma") =
      extract config draws (some text) (some "prisma") := by
  have models : IsWordText config.prismaKeywords.modelKeyword.toList := by
    rw [keywords]
    decide
  have enums : IsWordText config.prismaKeywords.enumKeyword.toList := by
    rw [keywords]
    decide
  have named (cleaned : List Char) :
      Extraction.dialectOf config (some "prisma") cleaned = pure .prisma := rfl
  have refed := Refed.withReturns text
  obtain ⟨fault, failed, failed'⟩ | ⟨cs, ds, clean, clean', cleaned⟩ :=
    Extraction.clean?_refed refed
  · rw [extract, extract, failed, failed']
  · simp only [extract, clean, clean', named, Journaled.pure_outcome, Option.getD_some]
    exact (Extraction.ofDialect_refed models enums refed cleaned _).symm

theorem two_lines_withReturns :
    (Config.default : Config Int).prismaKeywords = {} ∧
      withReturns "model A \x7b\nid Int @id\n\x7d".toList = "model A \x7b\r\nid Int @id\r\n\x7d".toList ∧
      extract (Config.default : Config Int) (fun _ => 0)
          (some (withReturns "model A \x7b\nid Int @id\n\x7d".toList)) (some "prisma") =
        extract Config.default (fun _ => 0) (some "model A \x7b\nid Int @id\n\x7d".toList)
          (some "prisma") :=
  ⟨rfl, by decide, extract_withReturns _ _ _ rfl⟩

end SchemaAtlas
