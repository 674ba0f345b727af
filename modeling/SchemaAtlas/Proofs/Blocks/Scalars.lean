import SchemaAtlas.Proofs.Blocks.Collected
import SchemaAtlas.Proofs.Blocks.Quoted
import SchemaAtlas.Proofs.Blocks.Scan

/-!
Models of scalar fields, some of which default to a string, and what a coarse reading keeps of them:
the first closing brace ends a model, so the fields up to the first one that has one in its default.
-/

set_option autoImplicit false

namespace SchemaAtlas

def Table.columnNames {R : Type} (table : Table R) : List String := table.columns.map (·.name)

namespace Blocks.Written

open Text

/-- A field of a type of the dictionary, with a string for its default or without one. -/
structure Scalar where
  name : String
  type : String
  default? : Option String := none
  deriving DecidableEq, Repr

structure ScalarModel where
  name : String
  fields : List Scalar := []
  deriving DecidableEq, Repr

namespace Scalar

def field (scalar : Scalar) : Field where
  name := scalar.name
  type := scalar.type
  attributes := scalar.default?.toList.map (Attribute.quoting "default")

/-- What stands between the quotes of the default. -/
def content (scalar : Scalar) : List Char := (scalar.default?.getD "").toList

structure WellFormed (types : TypeMap) (scalar : Scalar) : Prop where
  name : IsWordText scalar.name.toList
  type : IsWordText scalar.type.toList
  known : scalar.type ∈ types.typeNames
  content : IsContent scalar.content

instance (types : TypeMap) (scalar : Scalar) : Decidable (scalar.WellFormed types) :=
  decidable_of_iff (IsWordText scalar.name.toList ∧ IsWordText scalar.type.toList ∧
      scalar.type ∈ types.typeNames ∧ IsContent scalar.content)
    ⟨fun ⟨name, type, known, content⟩ => ⟨name, type, known, content⟩,
      fun formed => ⟨formed.name, formed.type, formed.known, formed.content⟩⟩

end Scalar

def ScalarModel.block (model : ScalarModel) : Block :=
  .model { name := model.name, fields := model.fields.map Scalar.field }

/-- Models of different names whose fields are all scalar. -/
structure AreScalar (types : TypeMap) (models : List ScalarModel) : Prop where
  name : ∀ model ∈ models, IsWordText model.name.toList
  fields : ∀ model ∈ models, ∀ field ∈ model.fields, field.WellFormed types
  distinct : (models.map (·.name)).Nodup

/-- The fields up to the first one with a closing brace in its default. -/
def keptScalars : List Scalar → List Scalar
  | [] => []
  | field :: fields => if '}' ∈ field.content then [field] else field :: keptScalars fields

/-- What stands in the defaults of some fields behind the first closing brace of them. -/
def exposedDefaults : List Scalar → List (List Char)
  | [] => []
  | field :: fields =>
    if '}' ∈ field.content then
      (field.content.dropWhile (· ≠ '}')).tail :: fields.map Scalar.content
    else exposedDefaults fields

theorem keptScalars_begins (fields : List Scalar) : keptScalars fields <+: fields := by
  induction fields with
  | nil => exact List.prefix_rfl
  | cons field fields ih =>
    rw [keptScalars]
    split
    next => exact ⟨fields, rfl⟩
    next => exact List.cons_prefix_cons.mpr ⟨rfl, ih⟩

theorem keptScalars_ne_nil {fields : List Scalar} (some : fields ≠ []) : keptScalars fields ≠ [] := by
  cases fields with
  | nil => exact absurd rfl some
  | cons field fields =>
    rw [keptScalars]
    split <;> exact List.cons_ne_nil _ _

/-- All fields are kept exactly if only the last one may have a closing brace in its default. -/
theorem keptScalars_eq_self_iff {fields : List Scalar} :
    keptScalars fields = fields ↔ ∀ field ∈ fields.dropLast, '}' ∉ field.content := by
  induction fields with
  | nil => simp [keptScalars]
  | cons field fields ih =>
    rw [keptScalars]
    cases fields with
    | nil => simp [keptScalars]
    | cons other fields =>
      split
      next cuts => simp [cuts]
      next whole => simp [whole, ih]

namespace Scalar

variable {types : TypeMap} {scalar : Scalar}

theorem text_field (scalar : Scalar) : scalar.field.text =
    scalar.name.toList ++ ' ' :: (scalar.type.toList ++ scalar.field.attributesText) := by
  simp [Field.text, field, Suffix.text]

/-- A default is written in one piece behind the type. -/
theorem attributesText_cases (scalar : Scalar) :
    (scalar.content = [] ∧ scalar.field.attributesText = []) ∨
      scalar.field.attributesText =
        " @default(\"".toList ++ scalar.content ++ ['"', ')'] := by
  cases held : scalar.default? with
  | none => exact .inl ⟨by simp [content, held], by simp [Field.attributesText, field, held]⟩
  | some default =>
    refine .inr ?_
    simp [Field.attributesText, field, held, Attribute.text_quoting, content]

theorem WellFormed.onLine (formed : scalar.WellFormed types) : scalar.field.OnLine where
  name := formed.name
  type := formed.type
  attributes := by
    intro attr member
    obtain ⟨default, held, rfl⟩ := List.mem_map.mp member
    have same : scalar.default? = some default := by simpa using held
    have plain : IsContent default.toList := by
      have whole := formed.content
      rwa [Scalar.content, same] at whole
    exact Attribute.onLine_quoting (by decide) (by decide) plain

theorem WellFormed.resolve (formed : scalar.WellFormed types) :
    ∃ type, types.resolve scalar.type = some type := by
  obtain ⟨entry, member, same⟩ := List.mem_map.mp formed.known
  have named : scalar.type ≠ "" := by simpa using formed.type.1
  rw [TypeMap.resolve, if_neg named, ← Option.isSome_iff_exists, Option.isSome_map,
    List.find?_isSome]
  exact ⟨entry, member, by simpa using same⟩

/-- A field without its default. -/
theorem WellFormed.isItem_front (formed : scalar.WellFormed types) :
    IsItem (scalar.name.toList ++ ' ' :: scalar.type.toList) := by
  have bare : Field.OnLine { scalar.field with attributes := [] } :=
    ⟨formed.name, formed.type, by simp⟩
  simpa [Field.text, field, Suffix.text, Field.attributesText] using bare.isItem_text

/-- The front of a line up to the type of a field is enough for its column. -/
theorem WellFormed.column?_front (formed : scalar.WellFormed types) (indent : Nat)
    {tail : List Char} (apart : ∀ c ∈ tail.head?, c = ' ') :
    ∃ column, Scan.column? types.provider (List.replicate indent ' ' ++
        (scalar.name.toList ++ ' ' :: (scalar.type.toList ++ tail))) = .ok (some column) ∧
      column.name = scalar.name := by
  obtain ⟨gap, rest, -⟩ := exists_trimRight tail
  have stops : ∀ c ∈ (trimRight tail).head?, Blocks.Field.isTypeChar c = false := by
    intro c first
    obtain rfl : c = ' ' := apart c (by rw [rest, List.head?_append, first]; rfl)
    rfl
  have trimmed : trim (List.replicate indent ' ' ++
      (scalar.name.toList ++ ' ' :: (scalar.type.toList ++ tail))) =
        scalar.name.toList ++ ' ' :: (scalar.type.toList ++ trimRight tail) := by
    have whole := trim_front formed.isItem_front.isTrimmed (by simp) tail
    rw [trim_append (isBlank_spaces indent)]
    simpa using whole
  have parts : Blocks.Field.parts? (scalar.name.toList ++ ' ' ::
      (scalar.type.toList ++ [] ++ trimRight tail)) = _ :=
    Field.parts?_front formed.name formed.type (by simp) stops
  have unmarked := Field.not_marked formed.name (' ' :: (scalar.type.toList ++ trimRight tail))
  rw [List.append_nil] at parts
  obtain ⟨resolved, found⟩ := formed.resolve
  have known : types.provider.resolve (String.ofList (Scan.plainType scalar.type.toList)) =
      .ok (some resolved) := by
    rw [Scan.plainType_eq_self formed.type, String.ofList_toList]
    exact congrArg Except.ok found
  have named : String.ofList scalar.name.toList ≠ "" := by simpa using formed.name.1
  unfold Scan.column?
  simp only [trimmed, unmarked, parts, known, Bool.or_false, Bool.false_eq_true, if_false, bind,
    Except.bind, Column.ofFields?_ok named (TypeMap.resolve_eq_some found).2]
  exact ⟨_, rfl, by simp⟩

/-- A field with a closing brace in its default: the text in front of it, and that behind it. -/
theorem text_of_cut (cuts : '}' ∈ scalar.content) : ∃ front,
    scalar.field.text = scalar.name.toList ++ ' ' :: (scalar.type.toList ++ ' ' :: front) ++
      '}' :: ((scalar.content.dropWhile (· ≠ '}')).tail ++ ['"', ')']) ∧ '}' ∉ front := by
  obtain ⟨before, behind, split, absent⟩ := List.eq_append_cons_of_mem cuts
  have rest : scalar.content.dropWhile (· ≠ '}') = '}' :: behind :=
    split ▸ dropWhile_ne absent behind
  refine ⟨"@default(\"".toList ++ before, ?_, by simp [absent]⟩
  rcases scalar.attributesText_cases with ⟨empty, -⟩ | whole
  · simp [empty] at cuts
  · rw [text_field, whole, rest]
    simp [split]

/-- A field without a closing brace in its default has none at all. -/
theorem WellFormed.closed_text (formed : scalar.WellFormed types) (whole : '}' ∉ scalar.content) :
    '}' ∉ scalar.field.text := by
  have word {text : List Char} (isWordText : IsWordText text) : '}' ∉ text :=
    isWordText.not_mem (by decide)
  rcases scalar.attributesText_cases with ⟨-, none⟩ | default
  · simp [text_field, none, word formed.name, word formed.type]
  · simp [text_field, default, word formed.name, word formed.type, whole]

/-- A header in a field stands in its default. -/
theorem WellFormed.sealed_text (formed : scalar.WellFormed types) {keyword : List Char}
    (known : IsWordText keyword) (headerless : Headerless keyword scalar.content) :
    Sealed keyword scalar.field.text := by
  have word {text : List Char} (isWordText : IsWordText text) : '{' ∉ text :=
    isWordText.not_mem (by decide)
  have front : '{' ∉ scalar.name.toList ++ ' ' :: scalar.type.toList := by
    simp [word formed.name, word formed.type]
  have split : scalar.field.text =
      (scalar.name.toList ++ ' ' :: scalar.type.toList) ++ scalar.field.attributesText := by
    simp [text_field]
  rw [split]
  refine .append (.of_braceless front) ?_
  rcases scalar.attributesText_cases with ⟨-, none⟩ | default
  · rw [none]
    exact .of_braceless (by simp)
  · have string : Headerless keyword ('"' :: (scalar.content ++ '"' :: [])) :=
      (headerless.append known (by decide) .nil).cons known (by decide)
    have mark : Sealed keyword " @default".toList := .of_braceless (by decide)
    rw [default]
    simpa using mark.append (.parenthesized known string)

end Scalar

/-- The lines of some fields, cut at the first closing brace of them and of the one behind them. -/
structure IsCut (types : TypeMap) (fields : List Scalar) (lines front behind : List Char) : Prop where
  split : lines ++ ['}'] = front ++ '}' :: behind
  closed : '}' ∉ front
  columns : ∃ columns, Scan.columns types.provider front = .ok columns ∧
    columns.map (·.name) = (keptScalars fields).map (·.name)
  quiet : (∀ cs ∈ exposedDefaults fields, Headerless ['m', 'o', 'd', 'e', 'l'] cs) →
    behind = [] ∨ ∃ inner, behind = inner ++ ['}'] ∧ Headerless ['m', 'o', 'd', 'e', 'l'] inner

def fieldLine (indent : Nat) (field : Scalar) : List Char :=
  List.replicate indent ' ' ++ (field.field.text ++ ['\n'])

section Cut

variable {types : TypeMap} {field : Scalar} {fields : List Scalar}

theorem sealed_fieldLines (formed : ∀ field ∈ fields, field.WellFormed types) {keyword : List Char}
    (known : IsWordText keyword)
    (headerless : ∀ cs ∈ fields.map Scalar.content, Headerless keyword cs) (indent : Nat) :
    Sealed keyword (fields.flatMap (fieldLine indent)) := by
  have feed : Sealed keyword ['\n'] := .of_braceless (by decide)
  have gap : Sealed keyword (List.replicate indent ' ') := .of_braceless (by simp)
  refine closed_flatMap (.of_braceless (by simp)) .append fun field member => ?_
  have here := headerless _ (List.mem_map_of_mem member)
  exact gap.append (((formed field member).sealed_text known here).append feed)

/-- With a closing brace in the default of the first field nothing of the others is left. -/
theorem isCut_cons_cut (formed : ∀ other ∈ field :: fields, other.WellFormed types)
    (cuts : '}' ∈ field.content) (indent : Nat) : ∃ front behind,
      IsCut types (field :: fields) ((field :: fields).flatMap (fieldLine indent)) front behind := by
  have here := formed field (.head _)
  obtain ⟨front, split, closed⟩ := Scalar.text_of_cut cuts
  generalize rest : (field.content.dropWhile (· ≠ '}')).tail = tail at split
  generalize same : List.replicate indent ' ' ++
    (field.name.toList ++ ' ' :: (field.type.toList ++ ' ' :: front)) = start
  have line : fieldLine indent field = start ++ '}' :: (tail ++ ['"', ')', '\n']) := by
    simp [fieldLine, split, ← same]
  have whole : '}' ∉ start := by
    simp [← same, here.name.not_mem (by decide : isWord '}' = false),
      here.type.not_mem (by decide : isWord '}' = false), closed]
  refine ⟨start, tail ++ '"' :: ')' :: '\n' :: fields.flatMap (fieldLine indent) ++ ['}'], ?_⟩
  constructor
  case split => simp [List.flatMap_cons, line]
  case closed => exact whole
  case columns =>
    obtain ⟨column, read, named⟩ := here.column?_front indent
      (fun c first => by simpa [eq_comm] using first : ∀ c ∈ (' ' :: front).head?, c = ' ')
    rw [same] at read
    have unbroken : '\n' ∉ start := by
      have absent := here.onLine.isItem_text.unbroken
      rw [split] at absent
      rw [← same, List.mem_append, not_or]
      exact ⟨by simp, fun member => absent (List.mem_append_left _ member)⟩
    refine ⟨[column], Scan.columns_line unbroken read, ?_⟩
    rw [keptScalars, if_pos cuts]
    simp [named]
  case quiet =>
    -- The quotes of the other defaults are of no help here: behind the cut all text is searched.
    intro quiet
    rw [exposedDefaults, if_pos cuts, rest] at quiet
    have known : IsWordText ['m', 'o', 'd', 'e', 'l'] := by decide
    have others := sealed_fieldLines (fun other member => formed other (.tail _ member)) known
      (fun cs member => quiet cs (.tail _ member)) indent
    have later : Headerless ['m', 'o', 'd', 'e', 'l']
        (')' :: '\n' :: fields.flatMap (fieldLine indent)) :=
      (others.headerless.cons known (by decide)).cons known (by decide)
    exact .inr ⟨_, rfl, (quiet tail (.head _)).append known (by decide) later⟩

theorem isCut_cons_whole (formed : ∀ other ∈ field :: fields, other.WellFormed types)
    (whole : '}' ∉ field.content) {indent : Nat} {front behind : List Char}
    (cut : IsCut types fields (fields.flatMap (fieldLine indent)) front behind) :
    IsCut types (field :: fields) ((field :: fields).flatMap (fieldLine indent))
      (fieldLine indent field ++ front) behind := by
  have here := formed field (.head _)
  have split : fieldLine indent field ++ front =
      (List.replicate indent ' ' ++ field.field.text) ++ '\n' :: front := by simp [fieldLine]
  constructor
  case split => rw [List.flatMap_cons, List.append_assoc, cut.split, List.append_assoc]
  case closed => simp [fieldLine, here.closed_text whole, cut.closed]
  case columns =>
    have apart : ∀ c ∈ field.field.attributesText.head?, c = ' ' := by
      rcases field.attributesText_cases with ⟨-, none⟩ | default
      · simp [none]
      · simp [default]
    obtain ⟨column, read, named⟩ := here.column?_front indent apart
    obtain ⟨columns, others, names⟩ := cut.columns
    have unbroken : '\n' ∉ List.replicate indent ' ' ++ field.field.text := by
      simp [here.onLine.isItem_text.unbroken]
    rw [← Scalar.text_field] at read
    refine ⟨column :: columns, ?_, ?_⟩
    · rw [split]
      exact Scan.columns_cons unbroken read others
    · rw [keptScalars, if_neg whole]
      simp [named, names]
  case quiet =>
    rw [exposedDefaults, if_neg whole]
    exact cut.quiet

theorem exists_isCut (formed : ∀ field ∈ fields, field.WellFormed types) (indent : Nat) :
    ∃ front behind, IsCut types fields (fields.flatMap (fieldLine indent)) front behind := by
  induction fields with
  | nil => exact ⟨[], [], rfl, by simp, ⟨[], rfl, rfl⟩, fun _ => .inl rfl⟩
  | cons field fields ih =>
    by_cases cuts : '}' ∈ field.content
    · exact isCut_cons_cut formed cuts indent
    · obtain ⟨front, behind, cut⟩ := ih fun other member => formed other (.tail _ member)
      exact ⟨_, behind, isCut_cons_whole formed cuts cut⟩

end Cut

/-- What a coarse reading keeps of some models: those with fields, and the names of the fields kept. -/
def keptNames (models : List ScalarModel) : List (String × List String) :=
  (models.filter (·.fields ≠ [])).map fun model =>
    (model.name, (keptScalars model.fields).map (·.name))

/-- A model as a coarse search finds it. -/
def ScalarModel.Found (types : TypeMap) (model : ScalarModel) (found : List Char × List Char) :
    Prop :=
  found.1 = model.name.toList ∧ ∃ columns, Scan.columns types.provider found.2 = .ok columns ∧
    columns.map (·.name) = (keptScalars model.fields).map (·.name)

/-- No header of a model stands in a default behind the first closing brace in the defaults of its
model. -/
def ScalarModel.Quiet (model : ScalarModel) : Prop :=
  ∀ cs ∈ exposedDefaults model.fields, Headerless ['m', 'o', 'd', 'e', 'l'] cs

variable {types : TypeMap} {models : List ScalarModel}

theorem ScalarModel.bodyText_block (model : ScalarModel) (indent : Nat) :
    bodyText indent model.block.lines = '\n' :: model.fields.flatMap (fieldLine indent) := by
  rw [bodyText, ScalarModel.block, Block.lines, List.map_map, List.flatMap_map]
  rfl

/-- A model is found with the fields that are kept of it, and nothing else up to its end. -/
theorem matchesFrom_model {model : ScalarModel} (named : IsWordText model.name.toList)
    (formed : ∀ field ∈ model.fields, field.WellFormed types) (quiet : model.Quiet) (indent : Nat)
    {before : Option Char} (free : Block.FreeBefore before) (rest : List Char) :
    ∃ found, model.Found types found ∧
      matchesFrom (Scan.flatBlock? ['m', 'o', 'd', 'e', 'l']) 0 before
          (model.block.text indent ++ rest) =
        found :: matchesFrom (Scan.flatBlock? ['m', 'o', 'd', 'e', 'l']) 0 (some '\n') rest := by
  have word : IsWordText ['m', 'o', 'd', 'e', 'l'] := by decide
  obtain ⟨front, behind, cut⟩ := exists_isCut formed indent
  obtain ⟨columns, read, names⟩ := cut.columns
  have split : bodyText indent model.block.lines ++ ['}'] = ('\n' :: front) ++ '}' :: behind := by
    rw [model.bodyText_block, List.cons_append, cut.split, List.cons_append]
  have closed : '}' ∉ '\n' :: front := List.not_mem_cons_of_ne_of_not_mem (by decide) cut.closed
  refine ⟨(model.name.toList, '\n' :: front), ⟨rfl, columns, ?_, names⟩, ?_⟩
  -- The feed behind the opening bracket ends a line without a field.
  · exact Scan.columns_cons List.not_mem_nil rfl read
  · rw [Block.text_eq_blockText]
    refine (matchesFrom_blockText named free split closed rest).trans (congrArg _ ?_)
    -- The search goes on behind the cut, which is the end of the block only without a brace inside.
    rcases cut.quiet quiet with rfl | ⟨inner, rfl, headerless⟩
    · exact Block.matchesFrom_feed word _ rest
    · rw [List.append_assoc]
      exact Block.matchesFrom_headerless word headerless _ rest

namespace AreScalar

theorem matchesFrom_text (formed : AreScalar types models) (quiet : ∀ model ∈ models, model.Quiet)
    (indent : Nat) {before : Option Char} (free : Block.FreeBefore before) :
    List.Forall₂ (ScalarModel.Found types) models
      (matchesFrom (Scan.flatBlock? ['m', 'o', 'd', 'e', 'l']) 0 before
        (text indent (models.map ScalarModel.block))) := by
  obtain ⟨name, fields, -⟩ := formed
  induction models generalizing before with
  | nil => exact .nil
  | cons model models ih =>
    obtain ⟨found, here, whole⟩ := matchesFrom_model (name model (.head _)) (fields model (.head _))
      (quiet model (.head _)) indent free (text indent (models.map ScalarModel.block))
    rw [List.map_cons, text, List.flatMap_cons, ← text, whole]
    exact .cons here (ih (fun other member => quiet other (.tail _ member)) (.inr rfl)
      (fun other member => name other (.tail _ member))
      fun other member => fields other (.tail _ member))

theorem uncommented_text (formed : AreScalar types models) (indent : Nat) :
    Uncommented .code (text indent (models.map ScalarModel.block)) := by
  obtain ⟨name, fields, -⟩ := formed
  induction models with
  | nil => trivial
  | cons model models ih =>
    rw [List.map_cons, text, List.flatMap_cons, Block.text_eq_blockText]
    refine uncommented_blockText model.block.isBlockKeyword.isWordText (name model (.head _))
      (inline_bodyText ?_ indent)
      (ih (fun other member => name other (.tail _ member))
        fun other member => fields other (.tail _ member))
    intro item member
    obtain ⟨field, inside, rfl⟩ := List.mem_map.mp member
    obtain ⟨scalar, declared, rfl⟩ := List.mem_map.mp inside
    have line := (fields model (.head _) scalar declared).onLine.isItem_text
    exact ⟨line.toIsInline, line.apart⟩

end AreScalar

variable {R : Type}

/-- The registry of a coarse reading of some models. -/
structure Skimmed (models : List ScalarModel) (registry : Registry R) : Prop where
  tables : registry.tables.map (fun table => (table.id, table.columnNames)) = keptNames models
  pending : registry.pending = []

theorem Skimmed.ids {registry : Registry R} (skimmed : Skimmed models registry) :
    registry.tables.map (·.id) ⊆ models.map (·.name) := by
  have ids := congrArg (List.map Prod.fst) skimmed.tables
  rw [keptNames, List.map_map, List.map_map] at ids
  rw [show registry.tables.map (·.id) = _ from ids]
  exact List.map_subset _ List.filter_sublist.subset

variable [Coordinate R] {config : Config R} (known : config.prismaTypes = types.provider)

include known

theorem addModel_skimmed (draws : Nat → R) {state : Registry R × Nat}
    (skimmed : Skimmed models state.1) {model : ScalarModel} {found : List Char × List Char}
    (here : model.Found types found) (new : model.name ∉ models.map (·.name)) :
    (Scan.addModel config draws state found).Returns (Skimmed (models ++ [model]) ·.1) := by
  obtain ⟨named, columns, read, names⟩ := here
  rw [← known] at read
  by_cases empty : model.fields = []
  next =>
    have none : columns = [] := by simpa [empty, keptScalars] using names
    refine (Scan.addModel_skips read none draws state).imp ?_
    rintro _ rfl
    exact ⟨by simpa [keptNames, empty] using skimmed.tables, skimmed.pending⟩
  next =>
    have held : columns ≠ [] := by
      rintro rfl
      exact keptScalars_ne_nil empty (List.map_eq_nil_iff.mp names.symm)
    obtain ⟨registry, drawn⟩ := state
    have fresh : String.ofList found.1 ∉ registry.tables.map (·.id) := by
      rw [named, String.ofList_toList]
      exact fun member => new (skimmed.ids member)
    refine (Scan.addModel_enters read held draws fresh drawn).imp ?_
    rintro ⟨next, _⟩ ⟨-, rfl⟩
    have last : keptNames [model] =
        [(model.name, (keptScalars model.fields).map (·.name))] := by
      simp [keptNames, empty]
    have split : keptNames (models ++ [model]) = keptNames models ++ keptNames [model] := by
      simp [keptNames]
    refine ⟨?_, skimmed.pending⟩
    rw [split, last, List.map_append, skimmed.tables]
    simp [Table.columnNames, names, named]

theorem foldlM_addModel_skimmed (draws : Nat → R) {seen : List ScalarModel}
    {found : List (List Char × List Char)} (pairs : List.Forall₂ (ScalarModel.Found types) models found)
    (distinct : ((seen ++ models).map (·.name)).Nodup) {state : Registry R × Nat}
    (skimmed : Skimmed seen state.1) :
    (found.foldlM (Scan.addModel config draws) state).Returns (Skimmed (seen ++ models) ·.1) := by
  -- The registry of the models before is general, since it grows from step to step.
  induction pairs generalizing seen state with
  | nil => exact .pure (by simpa using skimmed)
  | @cons model found models rest here _ ih =>
    have new : model.name ∉ seen.map (·.name) := by
      rw [List.map_append, List.nodup_append] at distinct
      intro member
      exact distinct.2.2 _ member _ (by simp) rfl
    rw [List.foldlM_cons]
    refine (addModel_skimmed known draws skimmed here new).bind fun next held => ?_
    refine (ih (by simpa using distinct) held).imp fun last all => ?_
    simpa using all

/-- Scalar models read coarsely. -/
theorem AreScalar.readSchema_text (formed : AreScalar types models)
    (quiet : ∀ model ∈ models, model.Quiet) (indent : Nat) (draws : Nat → R) :
    (Scan.readSchema config draws (text indent (models.map ScalarModel.block))).Returns
      fun schema =>
        schema.tables.map (fun table => (table.id, table.columnNames)) = keptNames models := by
  have pairs := formed.matchesFrom_text quiet indent (.inl rfl)
  have start : Skimmed [] (({}, 0) : Registry R × Nat).1 := ⟨rfl, rfl⟩
  refine .mapFault _ ?_
  rw [stripComments_eq_self (formed.uncommented_text indent), Scan.scan]
  refine (foldlM_addModel_skimmed known draws pairs (by simpa using formed.distinct) start).bind ?_
  rintro ⟨registry, _⟩ skimmed
  have merged : registry.merged = registry.tables := by
    simp [Registry.merged, Registry.pendingIndexes, show registry.pending = [] from skimmed.pending,
      Table.addIndexes]
  refine .pure ?_
  rw [merged]
  exact skimmed.tables

/-- A coarse reading of scalar models succeeds. It has a table for each model with a field, whose
columns are the fields up to the first one with a closing brace in its default: all of them exactly
if no default but that of the last field of a model holds a closing brace. -/
theorem scalars_kept_iff (formed : AreScalar types models) (quiet : ∀ model ∈ models, model.Quiet)
    (indent : Nat) (draws : Nat → R) :
    ∃ schema : Schema R,
      (Scan.readSchema config draws (text indent (models.map ScalarModel.block))).outcome =
        .ok schema ∧
      schema.tables.map (fun table => (table.id, table.columnNames)) = keptNames models ∧
      (schema.tables.map (fun table => (table.id, table.columnNames)) =
          (models.filter (·.fields ≠ [])).map (fun model =>
            (model.name, model.fields.map (·.name))) ↔
        ∀ model ∈ models, ∀ field ∈ model.fields.dropLast, '}' ∉ field.content) := by
  obtain ⟨schema, read, tables⟩ := formed.readSchema_text known quiet indent draws
  refine ⟨schema, read, tables, ?_⟩
  have whole (model : ScalarModel) :
      (keptScalars model.fields).map (·.name) = model.fields.map (·.name) ↔
        ∀ field ∈ model.fields.dropLast, '}' ∉ field.content := by
    rw [← keptScalars_eq_self_iff]
    refine ⟨fun same => ?_, fun same => by rw [same]⟩
    exact (keptScalars_begins model.fields).eq_of_length (by simpa using congrArg List.length same)
  rw [tables, keptNames, List.map_inj_left]
  constructor
  next =>
    intro same model member
    by_cases empty : model.fields = []
    · simp [empty]
    · have here := same model (List.mem_filter.mpr ⟨member, by simpa using empty⟩)
      exact (whole model).mp (Prod.mk.inj here).2
  next =>
    intro closed model member
    rw [(whole model).mpr (closed model (List.mem_of_mem_filter member))]

omit known

/-- A model with a default that names what is to be filled in, and one without fields. -/
def letters : List ScalarModel := [
  { name := "Letter"
    fields := [
      { name := "id", type := "Int" },
      { name := "body", type := "String", default? := some "Dear \x7bname\x7d" },
      { name := "sent", type := "Boolean" }] },
  { name := "Draft" }]

theorem areScalar_letters : AreScalar TypeMap.prisma letters := ⟨by decide, by decide, by decide⟩

theorem quiet_letters : ∀ model ∈ letters, model.Quiet := by
  have braceless : ∀ model ∈ letters, ∀ cs ∈ exposedDefaults model.fields, '{' ∉ cs := by decide
  exact fun model member cs inside => .of_braceless (braceless model member cs inside)

theorem scalars_kept_iff_letters :
    AreScalar TypeMap.prisma letters ∧ (∀ model ∈ letters, model.Quiet) ∧
      ∃ schema : Schema Int,
        (Scan.readSchema Config.default (fun _ => 0)
          (text 2 (letters.map ScalarModel.block))).outcome = .ok schema ∧
        schema.tables.map (fun table => (table.id, table.columnNames)) = keptNames letters ∧
        (schema.tables.map (fun table => (table.id, table.columnNames)) =
            (letters.filter (·.fields ≠ [])).map (fun model =>
              (model.name, model.fields.map (·.name))) ↔
          ∀ model ∈ letters, ∀ field ∈ model.fields.dropLast, '}' ∉ field.content) :=
  have known : (Config.default : Config Int).prismaTypes = TypeMap.prisma.provider := rfl
  ⟨areScalar_letters, quiet_letters,
    scalars_kept_iff known areScalar_letters quiet_letters 2 fun _ => 0⟩

/-- A brace in the default of a field hides the fields behind it. -/
theorem brace_in_default_hides_fields :
    AreScalar TypeMap.prisma letters ∧
      ∃ schema : Schema Int,
        (Scan.readSchema Config.default (fun _ => 0)
          (text 2 (letters.map ScalarModel.block))).outcome = .ok schema ∧
        schema.tables.map (fun table => (table.id, table.columnNames)) =
          [("Letter", ["id", "body"])] ∧
        (letters.filter (·.fields ≠ [])).map (fun model =>
          (model.name, model.fields.map (·.name))) = [("Letter", ["id", "body", "sent"])] := by
  have known : (Config.default : Config Int).prismaTypes = TypeMap.prisma.provider := rfl
  obtain ⟨schema, read, tables⟩ :=
    areScalar_letters.readSchema_text known quiet_letters 2 fun _ => 0
  exact ⟨areScalar_letters, schema, read, tables, rfl⟩

end Blocks.Written

end SchemaAtlas
