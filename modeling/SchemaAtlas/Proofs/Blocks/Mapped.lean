import SchemaAtlas.Proofs.Blocks.Collected
import SchemaAtlas.Proofs.Blocks.Quoted
import SchemaAtlas.Proofs.Blocks.Scan

/-!
Enumerations whose values are mapped to strings. An attribute is deleted up to the first closing
parenthesis behind it, so that a string with one in it leaves words among the values.
-/

set_option autoImplicit false

namespace SchemaAtlas.Blocks

open Text

/-- Nothing but the heads of some lists stands in them exactly if they have no tails. -/
theorem flatMap_cons_append_eq_map_iff {α β : Type} {head : α → β} {tail : α → List β}
    {as : List α} {last : List β} :
    (as.flatMap fun a => head a :: tail a) ++ last = as.map head ↔
      (∀ a ∈ as, tail a = []) ∧ last = [] := by
  induction as with
  | nil => simp
  | cons a as ih =>
    constructor
    next =>
      intro same
      have rest : tail a ++ ((as.flatMap fun a => head a :: tail a) ++ last) = as.map head := by
        simpa using same
      -- Both sides are as long as there are heads, so nothing is left for a tail or for the last list.
      have longer : as.length ≤ (as.flatMap fun a => head a :: tail a).length := by
        clear ih same rest
        induction as with
        | nil => simp
        | cons b as ih =>
          rw [List.flatMap_cons, List.length_append, List.length_cons, List.length_cons]
          omega
      have lengths := congrArg List.length rest
      rw [List.length_append, List.length_append, List.length_map] at lengths
      have none : tail a = [] := List.length_eq_zero_iff.mp (by omega)
      rw [none, List.nil_append] at rest
      obtain ⟨others, empty⟩ := ih.mp rest
      exact ⟨List.forall_mem_cons.mpr ⟨none, others⟩, empty⟩
    next =>
      rintro ⟨none, rfl⟩
      obtain ⟨here, others⟩ := List.forall_mem_cons.mp none
      have rest := ih.mpr ⟨others, rfl⟩
      rw [List.append_nil] at rest
      simp [here, rest]

namespace Written

/-- An item of an enumeration that the deletion of attributes keeps apart from those behind it. -/
def IsApart (item : List Char) : Prop := '@' ∉ item ∨ ∃ front, item = front ++ [')']

theorem IsApart.unattributed_append {item : List Char} (apart : IsApart item) (rest : List Char) :
    unattributed (item ++ '\n' :: rest) = unattributed item ++ '\n' :: unattributed rest := by
  have feed : unattributed ('\n' :: rest) = '\n' :: unattributed rest :=
    Blocks.unattributed_append (by decide : '@' ∉ ['\n']) rest
  -- An attribute could run on beyond the item only if no parenthesis closed it before.
  rcases apart with unmarked | ⟨front, rfl⟩
  · rw [Blocks.unattributed_append unmarked, unattributed_eq_self unmarked, feed]
  · rw [List.append_assoc, List.singleton_append, unattributed_break, feed]

/-- The values of an enumeration are found item by item. -/
theorem enumValues_items {items : List (List Char)} (each : ∀ item ∈ items, IsApart item)
    (indent : Nat) : enumValues (bodyText indent items) = items.flatMap enumValues := by
  have unmarked : '@' ∉ List.replicate indent ' ' := by simp
  have lines : words (unattributed (items.flatMap fun item =>
      List.replicate indent ' ' ++ (item ++ ['\n']))) =
        items.flatMap fun item => words (unattributed item) := by
    induction items with
    | nil => rfl
    | cons item items ih =>
      rw [List.flatMap_cons, List.append_assoc, unattributed_append unmarked, List.append_assoc,
        List.singleton_append, (each item (.head _)).unattributed_append, words_gap (isBlank_spaces indent),
        words_break (by decide), ih fun other member => each other (.tail _ member),
        List.flatMap_cons]
  have first := unattributed_append (by decide : '@' ∉ ['\n'])
    (items.flatMap fun item => List.replicate indent ' ' ++ (item ++ ['\n']))
  rw [List.singleton_append] at first
  rw [enumValues_eq, bodyText, first, List.singleton_append, words_cons (by decide), lines,
    List.map_flatMap]
  rfl

/-- A value of an enumeration, with the string that it is mapped to or without one. -/
structure MappedValue where
  word : String
  map? : Option String := none
  deriving DecidableEq, Repr

/-- An enumeration whose values may be mapped, and which may be mapped itself on its last line. -/
structure MappedEnum where
  name : String
  values : List MappedValue := []
  map? : Option String := none
  deriving DecidableEq, Repr

def mapping (content : String) : List Char := (Attribute.quoting "map" content).text

def MappedValue.text (value : MappedValue) : List Char :=
  value.word.toList ++ value.map?.toList.flatMap fun content => ' ' :: mapping content

namespace MappedEnum

def items (enum : MappedEnum) : List (List Char) :=
  enum.values.map MappedValue.text ++ enum.map?.toList.map fun content => '@' :: mapping content

def text (indent : Nat) (enum : MappedEnum) : List Char :=
  blockText ['e', 'n', 'u', 'm'] enum.name.toList (bodyText indent enum.items)

/-- The strings that the enumeration and its values are mapped to. -/
def contents (enum : MappedEnum) : List String :=
  enum.values.filterMap (·.map?) ++ enum.map?.toList

def declared (enum : MappedEnum) : List String := enum.values.map (·.word)

/-- The enumeration that is written. -/
def meant (enum : MappedEnum) : Enumeration where
  name := enum.name
  values := enum.declared

/-- All names and values are words, and the strings can stand on a line of a block. -/
structure WellFormed (enum : MappedEnum) : Prop where
  name : IsWordText enum.name.toList
  words : ∀ value ∈ enum.values, IsWordText value.word.toList
  contents : ∀ content ∈ enum.contents, IsContent content.toList ∧ '{' ∉ content.toList ∧
    '}' ∉ content.toList

end MappedEnum

/-- The words of a mapping behind its first closing parenthesis. -/
def leaked (content : String) : List String :=
  enumValues ((content.toList ++ ['"', ')']).dropWhile (· ≠ ')')).tail

/-- An enumeration as it is read, with what its mappings leave among its values. -/
def MappedEnum.read (enum : MappedEnum) : Enumeration where
  name := enum.name
  values := (enum.values.flatMap fun value => value.word :: value.map?.toList.flatMap leaked) ++
    enum.map?.toList.flatMap leaked

theorem leaked_of_whole {content : String} (whole : ')' ∉ content.toList) : leaked content = [] := by
  rw [leaked, List.append_cons, dropWhile_ne (by simp [whole])]
  rfl

/-- Without an attribute in it, the rest of a mapping always leaves a word. -/
theorem leaked_eq_nil_iff {content : String} (unmarked : '@' ∉ content.toList) :
    leaked content = [] ↔ ')' ∉ content.toList := by
  refine ⟨fun none cut => ?_, leaked_of_whole⟩
  obtain ⟨front, behind, split, absent⟩ := List.eq_append_cons_of_mem cut
  have rest : ((content.toList ++ ['"', ')']).dropWhile (· ≠ ')')).tail = behind ++ ['"', ')'] := by
    rw [split, List.append_assoc, List.cons_append, dropWhile_ne absent, List.tail_cons]
  have quiet : '@' ∉ behind ++ ['"', ')'] := by
    rw [split] at unmarked
    simp_all
  rw [leaked, rest, enumValues_eq, unattributed_eq_self quiet, List.map_eq_nil_iff] at none
  exact words_ne_nil (by decide : isBlank '"' = false) (by simp) none

section Mapping

variable {content : String}

theorem mapping_eq (content : String) : mapping content =
    '@' :: (['m', 'a', 'p'] ++ '(' :: '"' :: (content.toList ++ ['"', ')'])) :=
  Attribute.text_quoting "map" content

theorem enumAttribute?_mapping {marks : List Char} (marked : marks = [] ∨ marks = ['@'])
    (content : String) : enumAttribute? (marks ++ mapping content) =
      some ((content.toList ++ ['"', ')']).dropWhile (· ≠ ')')).tail := by
  have run : takeRun? Blocks.Attribute.isNameChar
      (['m', 'a', 'p'] ++ '(' :: '"' :: (content.toList ++ ['"', ')'])) =
        some (['m', 'a', 'p'], '(' :: '"' :: (content.toList ++ ['"', ')'])) :=
    takeRun?_append (by simp) (by decide) (by rintro _ ⟨⟩; decide)
  have head : Blocks.Attribute.head? (marks ++ mapping content) =
      some (['m', 'a', 'p'], '(' :: '"' :: (content.toList ++ ['"', ')'])) := by
    rw [mapping_eq]
    rcases marked with rfl | rfl
    · exact (Blocks.Attribute.head?_single (by simp)).trans run
    · exact run
  -- There is a first closing parenthesis: if it is none of the string, it is that of the mapping.
  obtain ⟨front, behind, split, absent⟩ :=
    List.eq_append_cons_of_mem (by simp : ')' ∈ content.toList ++ ['"', ')'])
  have inside : ('"' :: (front ++ ')' :: behind)).dropWhile (· ≠ ')') = ')' :: behind :=
    dropWhile_ne (List.not_mem_cons_of_ne_of_not_mem (by decide) absent) behind
  rw [enumAttribute?, head, split]
  simp only [Option.bind_eq_bind, Option.bind_some, inside, dropWhile_ne absent, List.tail_cons]
  rfl

theorem enumValues_mapping {marks : List Char} (marked : marks = [] ∨ marks = ['@'])
    (content : String) : enumValues (marks ++ mapping content) = leaked content := by
  rw [enumValues_eq, unattributed_found (enumAttribute?_mapping marked content),
    words_cons (by decide), leaked, enumValues_eq]

theorem exists_mapping (content : String) : ∃ front, mapping content = front ++ [')'] :=
  ⟨'@' :: (['m', 'a', 'p'] ++ '(' :: '"' :: (content.toList ++ ['"'])), by simp [mapping_eq]⟩

theorem isInline_mapping (plain : IsContent content.toList) : IsInline (mapping content) :=
  (Attribute.onLine_quoting (by decide) (by decide) plain).inline_text

end Mapping

namespace MappedValue

variable {value : MappedValue}

theorem enumValues_text (word : IsWordText value.word.toList) :
    enumValues value.text = value.word :: value.map?.toList.flatMap leaked := by
  have unmarked : '@' ∉ value.word.toList := word.not_mem (by decide)
  cases held : value.map? with
  | none =>
    have whole : value.text = value.word.toList := by simp [text, held]
    rw [whole, enumValues_eq, unattributed_eq_self unmarked, words_word word]
    simp
  | some content =>
    have whole : value.text = (value.word.toList ++ [' ']) ++ mapping content := by
      simp [text, held]
    have front : '@' ∉ value.word.toList ++ [' '] := by simp [unmarked]
    have rest : (words (unattributed (mapping content))).map String.ofList = leaked content :=
      enumValues_mapping (.inl rfl) content
    rw [whole, enumValues_eq, unattributed_append front, List.append_assoc, List.singleton_append,
      words_append word.1 word.solid (by decide), List.map_cons, rest]
    simp

theorem isApart_text (word : IsWordText value.word.toList) : IsApart value.text := by
  cases held : value.map? with
  | none =>
    have whole : value.text = value.word.toList := by simp [text, held]
    exact .inl (whole ▸ word.not_mem (by decide))
  | some content =>
    obtain ⟨front, last⟩ := exists_mapping content
    exact .inr ⟨value.word.toList ++ ' ' :: front, by simp [text, held, last]⟩

theorem isInline_text (word : IsWordText value.word.toList)
    (plain : ∀ content ∈ value.map?, IsContent content.toList) :
    IsInline value.text ∧ value.text.head? ≠ some '/' ∧ value.text.head? ≠ some '*' := by
  have front := isItem_of_isWordText word
  have apart := front.apart
  refine ⟨?_, ?_⟩
  · cases held : value.map? with
    | none => simpa [text, held] using front.toIsInline
    | some content =>
      have rest : IsInline (' ' :: mapping content) :=
        (isInline_mapping (plain content held)).cons (by decide)
      simpa [text, held] using front.toIsInline.append rest (by simp)
  · rwa [text, List.head?_append_of_ne_nil _ word.1]

end MappedValue

namespace MappedEnum

variable {enum : MappedEnum}

theorem WellFormed.values_read (formed : enum.WellFormed) (indent : Nat) :
    enumValues (bodyText indent enum.items) = enum.read.values := by
  have each : ∀ item ∈ enum.items, IsApart item := by
    intro item member
    rcases List.mem_append.mp member with named | last
    · obtain ⟨value, inside, rfl⟩ := List.mem_map.mp named
      exact MappedValue.isApart_text (formed.words value inside)
    · obtain ⟨content, -, rfl⟩ := List.mem_map.mp last
      obtain ⟨front, whole⟩ := exists_mapping content
      exact .inr ⟨'@' :: front, by simp [whole]⟩
  have values : (enum.values.map MappedValue.text).flatMap enumValues =
      enum.values.flatMap fun value => value.word :: value.map?.toList.flatMap leaked := by
    rw [List.flatMap_map]
    exact List.flatMap_congr fun value inside =>
      MappedValue.enumValues_text (formed.words value inside)
  have last : (enum.map?.toList.map fun content => '@' :: mapping content).flatMap enumValues =
      enum.map?.toList.flatMap leaked := by
    rw [List.flatMap_map]
    exact List.flatMap_congr fun content _ => enumValues_mapping (.inr rfl) content
  rw [enumValues_items each, items, List.flatMap_append, values, last]
  rfl

theorem WellFormed.isInline_body (formed : enum.WellFormed) (indent : Nat) :
    IsInline (bodyText indent enum.items) := by
  refine inline_bodyText (fun item member => ?_) indent
  rcases List.mem_append.mp member with named | last
  · obtain ⟨value, inside, rfl⟩ := List.mem_map.mp named
    refine MappedValue.isInline_text (formed.words value inside) fun content held => ?_
    exact (formed.contents content
      (List.mem_append_left _ (List.mem_filterMap.mpr ⟨value, inside, held⟩))).1
  · obtain ⟨content, held, rfl⟩ := List.mem_map.mp last
    have plain := (formed.contents content (List.mem_append_right _ held)).1
    exact ⟨(isInline_mapping plain).cons (by decide), by simp, by simp⟩

/-- There are no curly brackets between those of the enumeration. -/
theorem WellFormed.not_mem_body (formed : enum.WellFormed) {c : Char} (curly : c = '{' ∨ c = '}')
    (indent : Nat) : c ∉ bodyText indent enum.items := by
  have outside : isWord c = false ∧ isBlank c = false ∧
      c ∉ '@' :: '@' :: ['m', 'a', 'p', '(', '"', ')'] := by
    rcases curly with rfl | rfl <;> decide
  obtain ⟨unword, solid, mark⟩ := outside
  have mapped : ∀ content ∈ enum.contents, c ∉ '@' :: mapping content := by
    intro content member
    have plain := (formed.contents content member).2
    have absent : c ∉ content.toList := by
      rcases curly with rfl | rfl
      · exact plain.1
      · exact plain.2
    simp_all [mapping_eq]
  refine not_mem_bodyText (fun item member => ?_) solid indent
  rcases List.mem_append.mp member with named | last
  · obtain ⟨value, inside, rfl⟩ := List.mem_map.mp named
    rw [MappedValue.text, List.mem_append, not_or]
    refine ⟨(formed.words value inside).not_mem unword, fun text => ?_⟩
    obtain ⟨content, held, here⟩ := List.mem_flatMap.mp text
    have present : content ∈ enum.contents :=
      List.mem_append_left _ (List.mem_filterMap.mpr ⟨value, inside, by simpa using held⟩)
    rcases List.mem_cons.mp here with rfl | here
    · cases solid
    · exact mapped content present (.tail _ here)
  · obtain ⟨content, held, rfl⟩ := List.mem_map.mp last
    exact mapped content (List.mem_append_right _ held)

/-- The values of an enumeration are the declared words exactly if no mapping leaves a word. -/
theorem values_read_eq_iff (enum : MappedEnum) :
    enum.read.values = enum.declared ↔ ∀ content ∈ enum.contents, leaked content = [] := by
  have each : (∀ content ∈ enum.contents, leaked content = []) ↔
      (∀ value ∈ enum.values, value.map?.toList.flatMap leaked = []) ∧
        enum.map?.toList.flatMap leaked = [] := by
    simp only [contents, List.mem_append, List.mem_filterMap, or_imp, forall_and,
      List.flatMap_eq_nil_iff, Option.mem_toList, forall_exists_index, and_imp]
    exact and_congr_left fun _ => ⟨fun all value inside content held => all content value inside held,
      fun all content value inside held => all value inside content held⟩
  rw [each]
  exact flatMap_cons_append_eq_map_iff

theorem read_eq_meant_iff (enum : MappedEnum) :
    enum.read = enum.meant ↔ ∀ content ∈ enum.contents, leaked content = [] := by
  rw [← enum.values_read_eq_iff, read, meant]
  simp

theorem WellFormed.headerless (formed : enum.WellFormed) (indent : Nat) :
    Headerless ['m', 'o', 'd', 'e', 'l']
      (headerText ['e', 'n', 'u', 'm'] enum.name.toList ++ '{' :: bodyText indent enum.items) := by
  have apart : ¬ ['m', 'o', 'd', 'e', 'l'] <:+ ['e', 'n', 'u', 'm'] := by decide
  have header := Headerless.header (by decide) (by decide) apart formed.name
    (.of_braceless (formed.not_mem_body (.inl rfl) indent))
  simpa [headerText] using header

end MappedEnum

/-- Mapped enumerations as they are written, one block after the other. -/
def mappedText (indent : Nat) (enums : List MappedEnum) : List Char :=
  enums.flatMap (MappedEnum.text indent)

section Readings

variable {enums : List MappedEnum} (formed : ∀ enum ∈ enums, enum.WellFormed) (indent : Nat)

include formed

theorem uncommented_mappedText : Uncommented .code (mappedText indent enums) := by
  induction enums with
  | nil => trivial
  | cons enum enums ih =>
    have here := formed enum (.head _)
    rw [mappedText, List.flatMap_cons, MappedEnum.text]
    exact uncommented_blockText (by decide) here.name (here.isInline_body indent)
      (ih fun other member => formed other (.tail _ member))

theorem bracesBalanced_mappedText : bracesBalanced (mappedText indent enums) = true := by
  induction enums with
  | nil => rfl
  | cons enum enums ih =>
    have here := formed enum (.head _)
    rw [mappedText, List.flatMap_cons, MappedEnum.text,
      bracesBalanced_blockText (by decide) here.name (here.isInline_body indent)]
    exact ih fun other member => formed other (.tail _ member)

theorem looksLike_mappedText (some : enums ≠ []) : looksLike {} (mappedText indent enums) = true := by
  obtain ⟨enum, enums, rfl⟩ := List.exists_cons_of_ne_nil some
  have here := formed enum (.head _)
  have whole : mappedText indent (enum :: enums) = ['e', 'n', 'u', 'm'] ++ ([' '] ++
      (enum.name.toList ++ ' ' :: '{' :: (bodyText indent enum.items ++ '}' :: '\n' ::
        mappedText indent enums))) := by
    simp [mappedText, MappedEnum.text, blockText]
  refine findMatch_of_front ?_
  rw [whole]
  exact keywordWithName?_front (by decide) (by decide) isFree_none (List.cons_ne_nil ' ' [])
    (by decide) here.name _

/-- The search for blocks finds the enumerations. -/
theorem blocksFrom_mappedEnums (line : Nat) {before : Option Char} (free : Block.FreeBefore before) :
    let scan := blocksFrom ['e', 'n', 'u', 'm'] 0 line before (mappedText indent enums)
    scan.unclosed = none ∧ scan.blocks.map (fun block => (block.name, block.body)) =
      enums.map fun enum => (enum.name, bodyText indent enum.items) := by
  induction enums generalizing line before with
  | nil => exact ⟨rfl, rfl⟩
  | cons enum enums ih =>
    have here := formed enum (.head _)
    obtain ⟨next, found⟩ := blocksFrom_blockText here.name free
      (by decide : IsWordText ['e', 'n', 'u', 'm']) (here.isInline_body indent) line
      (mappedText indent enums)
    obtain ⟨closed, rest⟩ := ih (fun other member => formed other (.tail _ member)) next (.inr rfl)
    rw [mappedText, List.flatMap_cons, ← mappedText, MappedEnum.text, found]
    exact ⟨closed, by simp [rest]⟩

theorem blocksFrom_mappedModels (line : Nat) (before : Option Char) :
    blocksFrom ['m', 'o', 'd', 'e', 'l'] 0 line before (mappedText indent enums) = {} := by
  induction enums generalizing line before with
  | nil => rfl
  | cons enum enums ih =>
    have here := formed enum (.head _)
    obtain ⟨next, found⟩ := Block.blocksFrom_other (by decide : IsWordText ['m', 'o', 'd', 'e', 'l'])
      (here.headerless indent) line before (mappedText indent enums)
    rw [mappedText, List.flatMap_cons, ← mappedText, MappedEnum.text, found]
    exact ih (fun other member => formed other (.tail _ member)) next _

/-- What becomes of the enumerations once their names and bodies are known. -/
theorem map_read : (enums.map fun enum => (enum.name, bodyText indent enum.items)).map
    (fun (name, body) => ({ name, values := enumValues body } : Enumeration)) =
      enums.map MappedEnum.read := by
  rw [List.map_map]
  refine List.map_congr_left fun enum member => ?_
  simp only [Function.comp_apply, (formed enum member).values_read]
  rfl

theorem collect_mappedText :
    (collect {} (mappedText indent enums)).Returns (· = ([], enums.map MappedEnum.read)) := by
  obtain ⟨closed, found⟩ := blocksFrom_mappedEnums formed indent 1 (.inl rfl)
  have none := blocksFrom_mappedModels formed indent 1 none
  have values : (blocks "enum" (mappedText indent enums)).blocks.map
      (fun block => ({ name := block.name, values := enumValues block.body } : Enumeration)) =
        enums.map MappedEnum.read := by
    rw [← map_read formed indent, ← found, List.map_map]
    rfl
  have enumerations : readBlocks "enum" (fun block =>
      .ok { name := block.name, values := enumValues block.body }) (mappedText indent enums) =
        .ok (enums.map MappedEnum.read) := by
    have mapped : (blocks "enum" (mappedText indent enums)).blocks.mapM (fun block =>
        (.ok { name := block.name, values := enumValues block.body } : Except Fault Enumeration)) =
          .ok _ := List.mapM_pure
    have ended : (blocks "enum" (mappedText indent enums)).unclosed = Option.none := closed
    rw [values] at mapped
    simp only [readBlocks, mapped, ended]
    rfl
  have models : readBlocks "model" Model.ofBlock? (mappedText indent enums) = .ok [] := by
    have nothing : blocks "model" (mappedText indent enums) = {} := none
    rw [readBlocks, nothing]
    rfl
  exact ⟨_, collect_eq_ok.mpr ⟨enumerations, [], models, rfl⟩, rfl⟩

/-- The coarse search finds the enumerations. -/
theorem matchesFrom_mappedEnums {before : Option Char} (free : Block.FreeBefore before) :
    matchesFrom (Scan.flatBlock? ['e', 'n', 'u', 'm']) 0 before (mappedText indent enums) =
      enums.map fun enum => (enum.name.toList, bodyText indent enum.items) := by
  induction enums generalizing before with
  | nil => rfl
  | cons enum enums ih =>
    have here := formed enum (.head _)
    rw [mappedText, List.flatMap_cons, ← mappedText, MappedEnum.text,
      matchesFrom_blockText here.name free rfl (here.not_mem_body (.inr rfl) indent),
      List.nil_append, Block.matchesFrom_feed (by decide),
      ih (fun other member => formed other (.tail _ member)) (.inr rfl)]
    rfl

theorem enums_mappedText : Scan.enums (mappedText indent enums) = enums.map MappedEnum.read := by
  rw [Scan.enums, allMatches, matchesFrom_mappedEnums formed indent (.inl rfl),
    ← map_read formed indent, List.map_map, List.map_map]
  simp [Function.comp_def]

theorem matchesFrom_mappedModels (before : Option Char) :
    matchesFrom (Scan.flatBlock? ['m', 'o', 'd', 'e', 'l']) 0 before (mappedText indent enums) =
      [] := by
  induction enums generalizing before with
  | nil => rfl
  | cons enum enums ih =>
    rw [mappedText, List.flatMap_cons, ← mappedText, MappedEnum.text, Block.matchesFrom_other
      (by decide : IsWordText ['m', 'o', 'd', 'e', 'l']) ((formed enum (.head _)).headerless indent)]
    exact ih (fun other member => formed other (.tail _ member)) _

variable {R : Type} [Coordinate R]

/-- Mapped enumerations read block by block. -/
theorem readSchema_mappedText (some : enums ≠ []) {config : Config R}
    (keywords : config.prismaKeywords = {}) (draws : Nat → R) :
    (readSchema config draws (mappedText indent enums)).Returns
      (·.enums = enums.map MappedEnum.read) := by
  have cleaned := stripComments_eq_self (uncommented_mappedText formed indent)
  have held : enums.map MappedEnum.read ≠ [] := by simpa using some
  unfold readSchema
  simp only [cleaned, keywords, looksLike_mappedText formed indent some,
    bracesBalanced_mappedText formed, Bool.not_true]
  refine (collect_mappedText formed indent).bind ?_
  rintro _ rfl
  change (schemaOf config draws [] (enums.map MappedEnum.read)).Returns _
  rw [schemaOf, if_neg (by simpa using held)]
  exact ⟨_, rfl, rfl⟩

/-- Mapped enumerations read coarsely. -/
theorem scan_mappedText (config : Config R) (draws : Nat → R) :
    (Scan.readSchema config draws (mappedText indent enums)).Returns
      (·.enums = enums.map MappedEnum.read) := by
  have cleaned := stripComments_eq_self (uncommented_mappedText formed indent)
  have none : allMatches (Scan.flatBlock? ['m', 'o', 'd', 'e', 'l']) (mappedText indent enums) = [] :=
    matchesFrom_mappedModels formed indent Option.none
  refine .mapFault _ ?_
  rw [cleaned, Scan.scan, none]
  exact .pure (enums_mappedText formed indent)

/-- Both readings of mapped enumerations succeed and find the same values: the declared words, and
the words that the mappings leave. None is left if no mapping holds a closing parenthesis, and if
none holds an at-sign, only then. -/
theorem mappings_leak_iff (some : enums ≠ []) {config : Config R}
    (keywords : config.prismaKeywords = {}) (draws : Nat → R) :
    ∃ structural coarse : Schema R,
      (readSchema config draws (mappedText indent enums)).outcome = .ok structural ∧
      (Scan.readSchema config draws (mappedText indent enums)).outcome = .ok coarse ∧
      structural.enums = enums.map MappedEnum.read ∧ coarse.enums = structural.enums ∧
      (structural.enums = enums.map MappedEnum.meant ↔
        ∀ enum ∈ enums, ∀ content ∈ enum.contents, leaked content = []) ∧
      ((∀ enum ∈ enums, ∀ content ∈ enum.contents, ')' ∉ content.toList) →
        structural.enums = enums.map MappedEnum.meant) ∧
      ((∀ enum ∈ enums, ∀ content ∈ enum.contents, '@' ∉ content.toList) →
        structural.enums = enums.map MappedEnum.meant →
          ∀ enum ∈ enums, ∀ content ∈ enum.contents, ')' ∉ content.toList) := by
  obtain ⟨structural, read, values⟩ := readSchema_mappedText formed indent some keywords draws
  obtain ⟨coarse, scanned, found⟩ := scan_mappedText formed indent config draws
  have whole : structural.enums = enums.map MappedEnum.meant ↔
      ∀ enum ∈ enums, ∀ content ∈ enum.contents, leaked content = [] := by
    rw [values, List.map_inj_left]
    exact forall₂_congr fun enum _ => enum.read_eq_meant_iff
  refine ⟨structural, coarse, read, scanned, values, found.trans values.symm, whole, ?_, ?_⟩
  next =>
    intro closed
    exact whole.mpr fun enum member content inside => leaked_of_whole (closed enum member content inside)
  next =>
    intro unmarked same enum member content inside
    exact (leaked_eq_nil_iff (unmarked enum member content inside)).mp
      (whole.mp same enum member content inside)

end Readings

/-- An enumeration with a remark in parentheses in one of its mappings. -/
def roles : List MappedEnum := [
  { name := "Role"
    values := [{ word := "ADMIN", map? := some "admin (root)" }, { word := "USER" }]
    map? := some "roles" }]

theorem wellFormed_roles : ∀ enum ∈ roles, enum.WellFormed := by
  rintro _ (_ | ⟨_, ⟨⟩⟩)
  exact ⟨by decide, by decide, by decide⟩

theorem mappings_leak_iff_roles :
    (∀ enum ∈ roles, enum.WellFormed) ∧ roles ≠ [] ∧ ∃ structural coarse : Schema Int,
      (readSchema Config.default (fun _ => 0) (mappedText 2 roles)).outcome = .ok structural ∧
      (Scan.readSchema Config.default (fun _ => 0) (mappedText 2 roles)).outcome = .ok coarse ∧
      structural.enums = roles.map MappedEnum.read ∧ coarse.enums = structural.enums ∧
      (structural.enums = roles.map MappedEnum.meant ↔
        ∀ enum ∈ roles, ∀ content ∈ enum.contents, leaked content = []) ∧
      ((∀ enum ∈ roles, ∀ content ∈ enum.contents, ')' ∉ content.toList) →
        structural.enums = roles.map MappedEnum.meant) ∧
      ((∀ enum ∈ roles, ∀ content ∈ enum.contents, '@' ∉ content.toList) →
        structural.enums = roles.map MappedEnum.meant →
          ∀ enum ∈ roles, ∀ content ∈ enum.contents, ')' ∉ content.toList) :=
  have some : roles ≠ [] := List.cons_ne_nil _ _
  ⟨wellFormed_roles, some, mappings_leak_iff wellFormed_roles 2 some rfl fun _ => 0⟩

/-- What stands behind a parenthesis in a mapping becomes a value. -/
theorem parenthesis_leaks_value :
    (∀ enum ∈ roles, enum.WellFormed) ∧ ∃ structural coarse : Schema Int,
      (readSchema Config.default (fun _ => 0) (mappedText 2 roles)).outcome = .ok structural ∧
      (Scan.readSchema Config.default (fun _ => 0) (mappedText 2 roles)).outcome = .ok coarse ∧
      structural.enums = [{ name := "Role", values := ["ADMIN", "\")", "USER"] }] ∧
      coarse.enums = [{ name := "Role", values := ["ADMIN", "\")", "USER"] }] ∧
      roles.map MappedEnum.meant = [{ name := "Role", values := ["ADMIN", "USER"] }] := by
  obtain ⟨structural, read, values⟩ := readSchema_mappedText wellFormed_roles 2
    (List.cons_ne_nil _ _) (rfl : (Config.default : Config Int).prismaKeywords = {}) fun _ => 0
  obtain ⟨coarse, scanned, found⟩ :=
    scan_mappedText wellFormed_roles 2 (Config.default : Config Int) fun _ => 0
  have leaks : roles.map MappedEnum.read =
      [{ name := "Role", values := ["ADMIN", "\")", "USER"] }] := by decide +kernel
  exact ⟨wellFormed_roles, structural, coarse, read, scanned, values.trans leaks,
    found.trans leaks, rfl⟩

end Written

end SchemaAtlas.Blocks
