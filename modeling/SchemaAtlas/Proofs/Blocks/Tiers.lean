import SchemaAtlas.Proofs.Blocks.Plain
import SchemaAtlas.Proofs.Blocks.Scan

/-!
The two readings of a plain schema: both find its enumerations and a table for each of its models.
They agree on all of it but the types of keys that count up.
-/

set_option autoImplicit false

namespace SchemaAtlas

/-- Two columns differ in their types and defaults at most. -/
structure Column.Alike (first second : Column) : Prop where
  name : first.name = second.name
  isPrimaryKey : first.isPrimaryKey = second.isPrimaryKey
  isUnique : first.isUnique = second.isUnique
  isNotNull : first.isNotNull = second.isNotNull
  references : first.references = second.references

/-- Two tables differ in the types and defaults of their columns at most. -/
structure Table.Alike {R : Type} (first second : Table R) : Prop where
  id : first.id = second.id
  name : first.name = second.name
  columns : List.Forall₂ Column.Alike first.columns second.columns
  indexes : first.indexes = second.indexes
  position : first.position = second.position

def Table.columnTypes {R : Type} (table : Table R) : List String := table.columns.map (·.type)

namespace Blocks.Written

open Text

namespace Block

variable {block : Block}

/-- A block of the keyword itself is found, up to its first closing bracket. -/
theorem WellFormed.matchesFrom_same (formed : block.WellFormed) {indent : Nat}
    (closed : '}' ∉ bodyText indent block.lines) {before : Option Char} (free : FreeBefore before)
    (rest : List Char) :
    matchesFrom (Scan.flatBlock? block.keyword) 0 before (block.text indent ++ rest) =
      (block.name.toList, bodyText indent block.lines) ::
        matchesFrom (Scan.flatBlock? block.keyword) 0 (some '\n') rest := by
  rw [text_eq_blockText, matchesFrom_blockText formed.isWordText_name free rfl closed,
    List.nil_append, matchesFrom_feed block.isBlockKeyword.isWordText]

end Block

/-- The blocks of a keyword as the coarse reading finds them. -/
theorem matchesFrom_text {blocks : List Block} (formed : ∀ block ∈ blocks, block.WellFormed)
    {indent : Nat} (closed : ∀ block ∈ blocks, '}' ∉ bodyText indent block.lines)
    {keyword : List Char} (known : IsBlockKeyword keyword) {before : Option Char}
    (free : Block.FreeBefore before) :
    matchesFrom (Scan.flatBlock? keyword) 0 before (text indent blocks) =
      (blocks.filter (·.keyword = keyword)).map fun block =>
        (block.name.toList, bodyText indent block.lines) := by
  induction blocks generalizing before with
  | nil => rfl
  | cons block blocks ih =>
    have here := formed block (.head _)
    have later : ∀ {before}, Block.FreeBefore before → _ := fun free =>
      ih (fun other member => formed other (.tail _ member))
        (fun other member => closed other (.tail _ member)) free
    rw [text, List.flatMap_cons, ← text]
    by_cases same : block.keyword = keyword
    · subst same
      rw [here.matchesFrom_same (closed block (.head _)) free, later (.inr rfl),
        List.filter_cons_of_pos (by simp)]
      rfl
    · have headerless := here.headerless known (Ne.symm same) indent
      rw [Block.text_eq_blockText, Block.matchesFrom_other known.isWordText headerless,
        later (.inr rfl), List.filter_cons_of_neg (by simp [same])]

namespace Attribute.IsPlain

variable {attr : Attribute}

/-- A mark that begins like a plain attribute, with more behind it, is that attribute. -/
theorem mark_prefix_iff (plain : attr.IsPlain) {mark : String} (known : mark = "id" ∨ mark = "unique")
    (rest : List Char) : mark.toList <+: attr.name.toList ++ rest ↔ attr.name = mark := by
  rcases known with rfl | rfl <;> cases plain <;> simp [List.cons_prefix_cons]

/-- A plain attribute has no other mark than its own. -/
theorem text_eq (plain : attr.IsPlain) :
    ∃ rest, attr.text = '@' :: (attr.name.toList ++ rest) ∧ '@' ∉ attr.name.toList ++ rest := by
  have word {text : List Char} (isWordText : IsWordText text) : '@' ∉ text :=
    isWordText.not_mem (by decide)
  have names : ∀ name ∈ ["id", "unique", "updatedAt", "default"], '@' ∉ name.toList := by decide
  have name := names _ plain.name_mem
  refine ⟨_, rfl, ?_⟩
  rw [List.mem_append, not_or]
  refine ⟨name, ?_⟩
  cases plain with
  | id => simp
  | unique => simp
  | updatedAt => simp
  | word isWordText => simp [word isWordText]
  | call isWordText => simp [word isWordText]

end Attribute.IsPlain

theorem infix_append_of_not_mem {c : Char} {mark front rest : List Char} (absent : c ∉ front) :
    c :: mark <:+: front ++ rest ↔ c :: mark <:+: rest := by
  induction front with
  | nil => simp
  | cons d front ih =>
    rw [List.mem_cons, not_or] at absent
    rw [List.cons_append, List.infix_cons_iff, ih absent.2, List.cons_prefix_cons]
    simp [absent.1]

namespace Field.IsPlain

variable {field : Field}

/-- The coarse reading looks for the mark of an attribute anywhere on the line. -/
theorem mark_infix_iff (plain : field.IsPlain) {mark : String}
    (known : mark = "id" ∨ mark = "unique") :
    '@' :: mark.toList <:+: field.text ↔ ∃ attr ∈ field.attributes, attr.name = mark := by
  have word {text : List Char} (isWordText : IsWordText text) : '@' ∉ text :=
    isWordText.not_mem (by decide)
  have suffix : '@' ∉ field.suffix.text := by cases field.suffix <;> decide
  have front : '@' ∉ field.name.toList ++ ' ' :: (field.type.toList ++ field.suffix.text) := by
    simp [word plain.name, word plain.wellFormed.type, suffix]
  have whole : field.text = (field.name.toList ++ ' ' :: (field.type.toList ++ field.suffix.text)) ++
      field.attributesText := by simp [text]
  rw [whole, infix_append_of_not_mem front, attributesText]
  have each := plain.attributes
  generalize field.attributes = attributes at each
  induction attributes with
  | nil => simp
  | cons attr attributes ih =>
    have here := each attr (.head _)
    obtain ⟨args, same, absent⟩ := here.text_eq
    have later : '@' :: mark.toList <:+: (attributes.flatMap fun attr => ' ' :: attr.text) ↔
        ∃ attr ∈ attributes, attr.name = mark :=
      ih fun other member => each other (.tail _ member)
    rw [List.flatMap_cons, same, List.cons_append, List.infix_cons_iff, List.cons_append,
      List.infix_cons_iff, infix_append_of_not_mem absent, later, List.cons_prefix_cons,
      List.cons_prefix_cons, List.append_assoc, here.mark_prefix_iff known]
    simp

theorem closed_text (plain : field.IsPlain) : '}' ∉ field.text := by
  have word {text : List Char} (isWordText : IsWordText text) : '}' ∉ text :=
    isWordText.not_mem (by decide)
  have suffix : '}' ∉ field.suffix.text := by cases field.suffix <;> decide
  have attributes : '}' ∉ field.attributesText := by
    intro member
    obtain ⟨attr, inside, here⟩ := List.mem_flatMap.mp member
    cases plain.attributes attr inside with
    | id => simp [Attribute.text] at here
    | unique => simp [Attribute.text] at here
    | updatedAt => simp [Attribute.text] at here
    | word isWordText => simp [Attribute.text, word isWordText] at here
    | call isWordText => simp [Attribute.text, word isWordText] at here
  simp [text, word plain.name, word plain.wellFormed.type, suffix, attributes]

/-- What the coarse reading takes for the type of a field. -/
theorem plainType_typeText (plain : field.IsPlain) :
    Scan.plainType (field.type.toList ++ field.suffix.text) = field.type.toList := by
  have dropped : Scan.plainType field.suffix.text = [] := by
    cases field.suffix <;> rfl
  have split : Scan.plainType (field.type.toList ++ field.suffix.text) =
      Scan.plainType field.type.toList ++ Scan.plainType field.suffix.text := List.filter_append _ _
  rw [split, dropped, List.append_nil, Scan.plainType_eq_self plain.wellFormed.type]

/-- A plain field is a column of its type in the dictionary for the coarse reading. -/
theorem column?_text (plain : field.IsPlain) (indent : Nat) :
    ∃ column, Scan.column? TypeMap.prisma.provider (List.replicate indent ' ' ++ field.text) =
        .ok (some column) ∧
      field.IsColumn plainType column := by
  have named : String.ofList field.name.toList ≠ "" := by simpa using plain.name.1
  have id : contains ['@', 'i', 'd'] field.text = true ↔ _ :=
    contains_iff.trans (plain.mark_infix_iff (.inl rfl))
  have unique : contains ['@', 'u', 'n', 'i', 'q', 'u', 'e'] field.text = true ↔ _ :=
    contains_iff.trans (plain.mark_infix_iff (.inr rfl))
  obtain ⟨resolved, typed⟩ := plain.plainType_eq
  have known : TypeMap.prisma.provider.resolve (String.ofList (Scan.plainType
      (field.type.toList ++ field.suffix.text))) = .ok (some field.plainType) := by
    rw [plain.plainType_typeText, String.ofList_toList]
    exact congrArg Except.ok resolved
  have formed := plain.wellFormed
  unfold Scan.column?
  simp only [formed.trim_line, formed.not_marked, formed.parts?_text, known, Bool.or_false,
    Bool.false_eq_true, if_false, bind, Except.bind, Column.ofFields?_ok named typed]
  refine ⟨_, rfl, ?_⟩
  constructor
  case name => simp
  case type => rfl
  case isPrimaryKey => exact id
  case isUnique => exact unique
  case isNotNull =>
    have bare : '?' ∉ field.type.toList := formed.type.not_mem (by decide)
    cases field.suffix <;> simp [Suffix.text, bare]
  case references => rfl

end Field.IsPlain

theorem mapM_column?_lines {fields : List Field} (plain : ∀ field ∈ fields, field.IsPlain)
    (indent : Nat) :
    ∃ columns : List Column,
      (fields.map (fun field : Field => List.replicate indent ' ' ++ field.text) ++ [[]]).mapM
          (Scan.column? TypeMap.prisma.provider) = .ok (columns.map some ++ [none]) ∧
        List.Forall₂ (Field.IsColumn Field.plainType) fields columns := by
  induction fields with
  | nil => exact ⟨[], rfl, .nil⟩
  | cons field fields ih =>
    obtain ⟨column, here, described⟩ := (plain field (.head _)).column?_text indent
    obtain ⟨columns, later, rest⟩ := ih fun other member => plain other (.tail _ member)
    refine ⟨column :: columns, ?_, .cons described rest⟩
    rw [List.map_cons, List.cons_append, List.mapM_cons, here, later]
    rfl

/-- The columns of a plain model as the coarse reading finds them. -/
theorem Model.IsPlain.columns_bodyText {model : Model} (plain : model.IsPlain) (indent : Nat) :
    ∃ columns, Scan.columns TypeMap.prisma.provider
        (bodyText indent (Block.lines (.model model))) = .ok columns ∧
      List.Forall₂ (Field.IsColumn Field.plainType) model.fields columns := by
  obtain ⟨columns, found, described⟩ := mapM_column?_lines plain.fields indent
  have unbroken : ∀ item ∈ Block.lines (.model model), '\n' ∉ item := by
    intro item member
    obtain ⟨field, inside, rfl⟩ := List.mem_map.mp member
    exact (plain.fields field inside).wellFormed.onLine.isItem_text.unbroken
  refine ⟨columns, ?_, described⟩
  have first : Scan.column? TypeMap.prisma.provider [] = .ok none := rfl
  rw [Scan.columns, lines_bodyText unbroken, List.mapM_cons, first, Block.lines, List.map_map]
  simp only [Function.comp_def, found]
  simp [bind, Except.bind, pure, Except.pure]

variable {R : Type} [Coordinate R]

/-- The registry of a coarse reading of some models. -/
structure Scanned (draws : Nat → R) (models : List Model) (state : Registry R × Nat) : Prop where
  drawn : state.2 = models.length
  tables : List.Forall₂ (fun (model, place) => model.IsTable (Field.IsColumn Field.plainType)
    Layout.default draws model.fields place) models.zipIdx state.1.tables
  pending : state.1.pending = []

theorem Scanned.ids {draws : Nat → R} {models : List Model} {state : Registry R × Nat}
    (scanned : Scanned draws models state) :
    state.1.tables.map (·.id) = models.map (·.name) := by
  have same : models.zipIdx.map (fun entry => entry.1.name) = state.1.tables.map (·.id) :=
    map_eq_map_of_forall₂ scanned.tables fun entry table built => built.id.symm
  have names : models.zipIdx.map (fun entry => entry.1.name) = models.map (·.name) := by
    conv_rhs => rw [← List.zipIdx_map_fst 0 models, List.map_map]
    rfl
  rw [← same, names]

/-- The coarse reading puts the table of a plain model behind those before it. -/
theorem addModel_scanned {draws : Nat → R} {models : List Model} {state : Registry R × Nat}
    (scanned : Scanned draws models state) {model : Model} (plain : model.IsPlain)
    (new : model.name ∉ models.map (·.name)) (indent : Nat) :
    (Scan.addModel Config.default draws state
      (model.name.toList, bodyText indent (Block.lines (.model model)))).Returns
        (Scanned draws (models ++ [model])) := by
  obtain ⟨columns, found, described⟩ := plain.columns_bodyText indent
  have held : columns ≠ [] := by
    rintro rfl
    exact plain.some (List.forall₂_nil_right_iff.mp described)
  have size : state.1.size = models.length := by
    simpa [Registry.size] using congrArg List.length scanned.ids
  obtain ⟨registry, drawn⟩ := state
  obtain rfl : drawn = models.length := scanned.drawn
  have fresh : String.ofList model.name.toList ∉ registry.tables.map (·.id) := by
    rw [scanned.ids, String.ofList_toList]
    exact new
  refine (Scan.addModel_enters found held draws fresh models.length).imp ?_
  rintro ⟨next, _⟩ ⟨rfl, rfl⟩
  constructor
  case drawn => simp
  case pending => exact scanned.pending
  case tables =>
    rw [List.zipIdx_append]
    have layout : (Config.default : Config R).layout = Layout.default := rfl
    refine List.rel_append scanned.tables (.cons ⟨by simp, by simp, described, rfl, ?_⟩ .nil)
    simp [size, layout]

theorem foldlM_addModel_scanned {draws : Nat → R} {seen models : List Model}
    {state : Registry R × Nat} (scanned : Scanned draws seen state)
    (plain : ∀ model ∈ models, model.IsPlain)
    (distinct : ((seen ++ models).map (·.name)).Nodup) (indent : Nat) :
    ((models.map fun model => (model.name.toList, bodyText indent (Block.lines (.model model)))).foldlM
      (Scan.addModel Config.default draws) state).Returns (Scanned draws (seen ++ models)) := by
  induction models generalizing seen state with
  | nil => exact .pure (by simpa using scanned)
  | cons model models ih =>
    have new : model.name ∉ seen.map (·.name) := by
      rw [List.map_append, List.nodup_append] at distinct
      intro member
      exact distinct.2.2 _ member _ (by simp) rfl
    rw [List.map_cons, List.foldlM_cons]
    refine (addModel_scanned scanned (plain model (.head _)) new indent).bind fun next held => ?_
    refine (ih held (fun other member => plain other (.tail _ member)) (by simpa using distinct)).imp
      fun last all => ?_
    simpa using all

namespace IsPlain

variable {blocks : List Block}

theorem closed_bodyText (plain : IsPlain blocks) (indent : Nat) :
    ∀ block ∈ blocks, '}' ∉ bodyText indent block.lines := by
  intro block member
  refine not_mem_bodyText (fun item inside => ?_) (by decide) indent
  cases block with
  | enumeration enum =>
    obtain ⟨value, declared, rfl⟩ := List.mem_map.mp inside
    have words := (plain.enums enum (List.mem_filterMap.mpr ⟨_, member, rfl⟩)).2
    exact fun brace => absurd ((words value declared).2 _ brace) (by decide)
  | model model =>
    obtain ⟨field, declared, rfl⟩ := List.mem_map.mp inside
    have here := plain.each model (List.mem_filterMap.mpr ⟨_, member, rfl⟩)
    exact (here.fields field declared).closed_text

/-- The enumerations of a plain schema as the coarse reading finds them. -/
theorem enums_text (plain : IsPlain blocks) (indent : Nat) :
    Scan.enums (text indent blocks) = enumerations blocks := by
  rw [Scan.enums, allMatches, matchesFrom_text plain.wellFormed.each (plain.closed_bodyText indent)
    (.inl rfl) (.inl rfl)]
  rw [show ['e', 'n', 'u', 'm'] = "enum".toList from rfl, filter_enumerations, List.map_map,
    List.map_map]
  refine (List.map_congr_left fun enum member => ?_).trans (List.map_id _)
  simp only [Function.comp_apply, Block.name, Block.lines,
    enumValues_bodyText (plain.enums enum member).2, String.ofList_toList]
  rfl

/-- A plain schema read coarsely. -/
theorem scan_text (plain : IsPlain blocks) (indent : Nat) (draws : Nat → R) :
    (Scan.readSchema Config.default draws (text indent blocks)).Returns fun schema =>
      schema.enums = enumerations blocks ∧
        List.Forall₂ (fun (model, place) => model.IsTable (Field.IsColumn Field.plainType)
          Layout.default draws model.fields place) (models blocks).zipIdx schema.tables := by
  have formed := plain.wellFormed
  have found : allMatches (Scan.flatBlock? ['m', 'o', 'd', 'e', 'l']) (text indent blocks) =
      (models blocks).map fun model =>
        (model.name.toList, bodyText indent (Block.lines (.model model))) := by
    rw [allMatches, matchesFrom_text formed.each (plain.closed_bodyText indent) (.inr rfl)
      (.inl rfl), show ['m', 'o', 'd', 'e', 'l'] = "model".toList from rfl, filter_models,
      List.map_map]
    rfl
  have start : Scanned draws [] (({}, 0) : Registry R × Nat) := ⟨rfl, .nil, rfl⟩
  refine .mapFault _ ?_
  rw [stripComments_eq_self (uncommented_text formed.each indent), Scan.scan, found]
  refine (foldlM_addModel_scanned start plain.each (by simpa using plain.distinct) indent).bind ?_
  rintro ⟨registry, drawn⟩ scanned
  refine .pure ⟨plain.enums_text indent, ?_⟩
  have pending : registry.pending = [] := scanned.pending
  have merged : registry.merged = registry.tables := by
    simp [Registry.merged, Registry.pendingIndexes, pending, Table.addIndexes]
  rw [merged]
  exact scanned.tables

end IsPlain

theorem Field.IsColumn.alike {first second : Field → String} {field : Field} {column other : Column}
    (built : field.IsColumn first column) (rebuilt : field.IsColumn second other) :
    column.Alike other where
  name := built.name.trans rebuilt.name.symm
  isPrimaryKey := Bool.eq_iff_iff.mpr (built.isPrimaryKey.trans rebuilt.isPrimaryKey.symm)
  isUnique := Bool.eq_iff_iff.mpr (built.isUnique.trans rebuilt.isUnique.symm)
  isNotNull := Bool.eq_iff_iff.mpr (built.isNotNull.trans rebuilt.isNotNull.symm)
  references := built.references.trans rebuilt.references.symm

section Tables

variable {draws : Nat → R} {models : List Model} {first second : Field → String}
  {tables others : List (Table R)}

theorem alike_of_tables
    (built : List.Forall₂ (fun (model, place) => Model.IsTable (Field.IsColumn first)
      Layout.default draws model.fields place model) models.zipIdx tables)
    (rebuilt : List.Forall₂ (fun (model, place) => Model.IsTable (Field.IsColumn second)
      Layout.default draws model.fields place model) models.zipIdx others) :
    List.Forall₂ Table.Alike tables others := by
  refine forall₂_join built rebuilt fun (model, place) table other this that => ?_
  exact
    { id := this.id.trans that.id.symm
      name := this.name.trans that.name.symm
      columns := forall₂_join this.columns that.columns fun _ _ _ built rebuilt => built.alike rebuilt
      indexes := this.indexes.trans that.indexes.symm
      position := this.position.trans that.position.symm }

theorem columnTypes_of_tables
    (built : List.Forall₂ (fun (model, place) => Model.IsTable (Field.IsColumn first)
      Layout.default draws model.fields place model) models.zipIdx tables) :
    tables.map Table.columnTypes = models.map fun model => model.fields.map first := by
  have same : models.zipIdx.map (fun entry => entry.1.fields.map first) =
      tables.map Table.columnTypes := by
    refine map_eq_map_of_forall₂ built fun (model, place) table this => ?_
    exact map_eq_map_of_forall₂ this.columns fun field column made => made.type.symm
  rw [← same]
  conv_rhs => rw [← List.zipIdx_map_fst 0 models, List.map_map]
  rfl

end Tables

/-- Both readings of a plain schema find the same enumerations, and tables that differ in the types
and defaults of their columns at most. The types are the same exactly if no key counts up. -/
theorem plain_tiers_agree_iff {blocks : List Block} (plain : IsPlain blocks) (indent : Nat)
    (draws : Nat → R) :
    ∃ structural coarse : Schema R,
      (readSchema Config.default draws (text indent blocks)).outcome = .ok structural ∧
      (Scan.readSchema Config.default draws (text indent blocks)).outcome = .ok coarse ∧
      structural.enums = coarse.enums ∧
      List.Forall₂ Table.Alike structural.tables coarse.tables ∧
      (structural.tables.map Table.columnTypes = coarse.tables.map Table.columnTypes ↔
        ∀ model ∈ models blocks, ∀ field ∈ model.fields, ¬ field.CountsUp) := by
  obtain ⟨structural, read, enums, tables⟩ := plain.readSchema_text indent draws
  obtain ⟨coarse, scanned, others, rest⟩ := plain.scan_text indent draws
  refine ⟨structural, coarse, read, scanned, enums.trans others.symm, alike_of_tables tables rest, ?_⟩
  rw [columnTypes_of_tables tables, columnTypes_of_tables rest, List.map_inj_left]
  refine forall₂_congr fun model member => ?_
  rw [List.map_inj_left]
  refine forall₂_congr fun field inside => ?_
  exact ((plain.each model member).fields field inside).keyType_eq_plainType_iff

/-- An enumeration, and a model whose key gets its value from a generator. -/
def keyedBy (generator : String) : List Block := [
  .enumeration { name := "Plan", values := ["FREE", "PAID"] },
  .model
    { name := "Account"
      fields := [
        { name := "id", type := "Int"
          attributes := [{ name := "id" }, { name := "default", args := some (generator ++ "()") }] },
        { name := "email", type := "String", suffix := .optional
          attributes := [{ name := "unique" }] },
        { name := "since", type := "DateTime", attributes := [{ name := "updatedAt" }] }] }]

theorem isPlain_keyedBy {generator : String} (word : IsWordText generator.toList) :
    IsPlain (keyedBy generator) := by
  have words : ∀ name ∈ ["Account", "id", "email", "since"], IsWordText name.toList := by decide
  have types : ∀ name ∈ ["Int", "String", "DateTime"],
      name ∈ TypeMap.prisma.typeNames ∧ name ∉ ["Account"] := by decide
  have names : (models (keyedBy generator)).map (·.name) = ["Account"] := rfl
  constructor
  case some => simp [keyedBy]
  case enums =>
    rintro _ (_ | ⟨_, ⟨⟩⟩)
    exact ⟨by decide, by decide⟩
  case each =>
    rintro _ (_ | ⟨_, ⟨⟩⟩)
    refine ⟨words _ (by simp), by simp, ?_⟩
    simp only [List.forall_mem_cons]
    refine ⟨⟨words _ (by simp), (types _ (by simp)).1, by simp, ?_⟩,
      ⟨words _ (by simp), (types _ (by simp)).1, by simp, ?_⟩,
      ⟨words _ (by simp), (types _ (by simp)).1, by simp, ?_⟩, by simp⟩
    · simpa using ⟨Attribute.IsPlain.id, .call word⟩
    · simpa using Attribute.IsPlain.unique
    · simpa using Attribute.IsPlain.updatedAt
  case scalar =>
    rw [names]
    rintro _ (_ | ⟨_, ⟨⟩⟩)
    simp only [List.forall_mem_cons]
    exact ⟨(types _ (by simp)).2, (types _ (by simp)).2, (types _ (by simp)).2, by simp⟩
  case distinct => exact List.nodup_singleton _

theorem plain_tiers_agree_iff_numbered :
    IsPlain (keyedBy "nextval") ∧
      ∃ structural coarse : Schema Int,
        (readSchema Config.default (fun _ => 0) (text 2 (keyedBy "nextval"))).outcome =
            .ok structural ∧
        (Scan.readSchema Config.default (fun _ => 0) (text 2 (keyedBy "nextval"))).outcome =
            .ok coarse ∧
        structural.enums = coarse.enums ∧
        List.Forall₂ Table.Alike structural.tables coarse.tables ∧
        (structural.tables.map Table.columnTypes = coarse.tables.map Table.columnTypes ↔
          ∀ model ∈ models (keyedBy "nextval"), ∀ field ∈ model.fields, ¬ field.CountsUp) :=
  have plain : IsPlain (keyedBy "nextval") := isPlain_keyedBy (by decide)
  ⟨plain, plain_tiers_agree_iff plain 2 fun _ => 0⟩

/-- A generator whose name only ends like the counting one makes a serial key of one reading and
none of the other. -/
theorem counting_lookalike_splits_tiers :
    IsPlain (keyedBy "myautoincrement") ∧
      (∀ model ∈ models (keyedBy "myautoincrement"), ∀ field ∈ model.fields,
        ∀ attr ∈ field.attributes, attr.args ≠ some "autoincrement()") ∧
      ∃ structural coarse : Schema Int,
        (readSchema Config.default (fun _ => 0) (text 2 (keyedBy "myautoincrement"))).outcome =
            .ok structural ∧
        (Scan.readSchema Config.default (fun _ => 0)
            (text 2 (keyedBy "myautoincrement"))).outcome = .ok coarse ∧
        structural.tables.map Table.columnTypes ≠ coarse.tables.map Table.columnTypes := by
  have plain : IsPlain (keyedBy "myautoincrement") := isPlain_keyedBy (by decide)
  obtain ⟨structural, read, -⟩ := plain.readSchema_text 2 fun _ => (0 : Int)
  obtain ⟨coarse, scanned, -⟩ := plain.scan_text 2 fun _ => (0 : Int)
  refine ⟨plain, by decide, structural, coarse, read, scanned, ?_⟩
  have serial : (readSchema (Config.default : Config Int) (fun _ => 0)
      (text 2 (keyedBy "myautoincrement"))).outcome.toOption.map (·.tables.map Table.columnTypes) =
        some [["serial", "text", "timestamp"]] := by
    decide +kernel
  have integer : (Scan.readSchema (Config.default : Config Int) (fun _ => 0)
      (text 2 (keyedBy "myautoincrement"))).outcome.toOption.map (·.tables.map Table.columnTypes) =
        some [["integer", "text", "timestamp"]] := by
    decide +kernel
  rw [read] at serial
  rw [scanned] at integer
  have first : structural.tables.map Table.columnTypes = _ := Option.some.inj serial
  have second : coarse.tables.map Table.columnTypes = _ := Option.some.inj integer
  rw [first, second]
  decide

end Blocks.Written

end SchemaAtlas
