import SchemaAtlas.Proofs.Blocks.Columns

/-!
What the attributes of a model say of its table, one after the other: one gives the table its name,
another lists the columns of an index, which stands behind those that were listed before. An index
that is given no name has one made of the model, the attribute and the number of indexes in front of
it. Such a name can be taken apart from its end, so that no two indexes of a schema share one.
-/

set_option autoImplicit false

namespace SchemaAtlas.Blocks

open Text

namespace Attribute

/-- The name that an attribute of a model gives to the table. -/
def tableName? (keywords : PrismaKeywords) (attr : Attribute) : Option String :=
  match attr.args with
  | [] => none
  | first :: _ =>
    if attr.name = keywords.mapAttribute then some (String.ofList (unquote first.toList)) else none

/-- The columns of the index that an attribute of a model makes. Without any it makes none. -/
def indexColumns (keywords : PrismaKeywords) (attr : Attribute) : List String :=
  match attr.args with
  | [] => []
  | first :: _ =>
    if attr.name ≠ keywords.mapAttribute ∧ attr.name ∈ keywords.indexAttributes then
      listNames ((TableMarks.nonEmpty? (attr.named? "fields")).getD first).toList
    else []

/-- The index that an attribute makes behind a number of others. -/
def index (keywords : PrismaKeywords) (model : String) (count : Nat) (attr : Attribute) : Index where
  name := TableMarks.indexName model count attr
  columns := attr.indexColumns keywords
  isUnique := attr.name ∈ keywords.uniqueIndexAttributes

/-- An attribute leaves its index without a name; an empty name is none. -/
def IsUnnamed (attr : Attribute) : Prop :=
  TableMarks.nonEmpty? (attr.named? "name") = none ∧ TableMarks.nonEmpty? (attr.named? "map") = none

instance (attr : Attribute) : Decidable attr.IsUnnamed := inferInstanceAs (Decidable (_ ∧ _))

theorem tableName?_eq_none {keywords : PrismaKeywords} {attr : Attribute} :
    attr.tableName? keywords = none ↔ ¬(attr.name = keywords.mapAttribute ∧ attr.args ≠ []) := by
  unfold tableName?
  cases attr.args <;> simp

theorem mem_indexAttributes {keywords : PrismaKeywords} {attr : Attribute}
    (lists : attr.indexColumns keywords ≠ []) : attr.name ∈ keywords.indexAttributes := by
  unfold indexColumns at lists
  split at lists
  next => exact absurd rfl lists
  next =>
    split at lists
    next known => exact known.2
    next => exact absurd rfl lists

theorem IsUnnamed.indexName {attr : Attribute} (unnamed : attr.IsUnnamed) (model : String)
    (count : Nat) :
    TableMarks.indexName model count attr = model ++ "_" ++ attr.name ++ "_" ++ toString count := by
  rw [TableMarks.indexName, unnamed.1, Option.none_or, unnamed.2]

end Attribute

/-- The attributes of a model that make indexes. -/
def Model.indexAttributes (keywords : PrismaKeywords) (model : Model) : List Attribute :=
  model.attributes.filter (·.indexColumns keywords ≠ [])

section Marks

variable {keywords : PrismaKeywords} {model : String}

namespace TableMarks

/-- All that an attribute does. -/
theorem add_eq (marks : TableMarks) (attr : Attribute) : marks.add keywords model attr =
    { name := (attr.tableName? keywords).getD marks.name
      indexes := marks.indexes ++
        if attr.indexColumns keywords = [] then []
        else [attr.index keywords model marks.indexes.length]
      compositeKey := marks.compositeKey ++
        if attr.name = keywords.idAttribute then attr.indexColumns keywords else [] } := by
  unfold add Attribute.index Attribute.indexColumns Attribute.tableName?
  cases attr.args with
  | nil => simp
  | cons first later =>
    by_cases mapped : attr.name = keywords.mapAttribute
    next => simp [mapped]
    next =>
      by_cases known : attr.name ∈ keywords.indexAttributes
      next =>
        simp only [mapped, known, if_false, not_true_eq_false, ne_eq, not_false_eq_true, and_self,
          if_true, Option.getD_none]
        generalize listNames _ = columns
        cases columns with
        | nil => simp
        | cons column columns =>
          simp only [List.isEmpty_cons, Bool.false_eq_true, if_false, reduceCtorEq]
          split <;> simp
      next => simp [mapped, known]

theorem prefix_add (marks : TableMarks) (attr : Attribute) :
    marks.indexes <+: (add keywords model marks attr).indexes ∧
      marks.compositeKey <+: (add keywords model marks attr).compositeKey := by
  rw [add_eq]
  exact ⟨List.prefix_append _ _, List.prefix_append _ _⟩

theorem prefix_foldl_add (attributes : List Attribute) (marks : TableMarks) :
    marks.indexes <+: (attributes.foldl (add keywords model) marks).indexes ∧
      marks.compositeKey <+: (attributes.foldl (add keywords model) marks).compositeKey := by
  induction attributes generalizing marks with
  | nil => exact ⟨List.prefix_refl _, List.prefix_refl _⟩
  | cons attr attributes ih =>
    obtain ⟨indexes, key⟩ : _ ∧ _ := prefix_add marks attr
    obtain ⟨indexes', key'⟩ := ih (add keywords model marks attr)
    exact ⟨indexes.trans indexes', key.trans key'⟩

/-- Every index is numbered by those in front of it, whether they are named or not. -/
theorem indexes_foldl_add (attributes : List Attribute) (marks : TableMarks) :
    (attributes.foldl (add keywords model) marks).indexes = marks.indexes ++
      (attributes.filter (·.indexColumns keywords ≠ [])).mapIdx fun place attr =>
        attr.index keywords model (marks.indexes.length + place) := by
  induction attributes generalizing marks with
  | nil => simp
  | cons attr attributes ih =>
    rw [List.foldl_cons, ih, add_eq]
    by_cases none : attr.indexColumns keywords = []
    next => simp [none]
    next =>
      -- The index that is made here moves those that follow it up by one.
      have shifted (place : Nat) : (marks.indexes ++
          [attr.index keywords model marks.indexes.length]).length + place =
            marks.indexes.length + (place + 1) := by
        rw [List.length_append, List.length_singleton]
        omega
      simp only [if_neg none, shifted]
      rw [List.filter_cons_of_pos (by simpa using none), List.mapIdx_cons, List.append_assoc,
        List.singleton_append, Nat.add_zero]

end TableMarks

theorem Model.indexes_marks (model : Model) :
    (model.marks keywords).indexes = (model.indexAttributes keywords).mapIdx fun place attr =>
      attr.index keywords model.name place := by
  rw [marks, TableMarks.indexes_foldl_add]
  simp [indexAttributes]

end Marks

theorem repr_inj {count count' : Nat} :
    (toString count).toList = (toString count').toList ↔ count = count' := by
  rw [Nat.toString_eq_repr, Nat.toString_eq_repr, Nat.toList_repr, Nat.toList_repr]
  constructor
  next =>
    intro same
    have read := congrArg (fun digits => Nat.ofDigitChars 10 digits 0) same
    simpa using read
  next => exact congrArg (Nat.toDigits 10)

/-- A made name is read from its end: the number holds no mark, nor does the kind of the index, and
what is in front of them is the model, whatever marks and digits its name has. -/
theorem madeName_inj {kind kind' : String} (plain : '_' ∉ kind.toList) (plain' : '_' ∉ kind'.toList)
    (model model' : String) (count count' : Nat) :
    model ++ "_" ++ kind ++ "_" ++ toString count =
        model' ++ "_" ++ kind' ++ "_" ++ toString count' ↔
      model = model' ∧ kind = kind' ∧ count = count' := by
  have digits (n : Nat) : '_' ∉ (toString n).toList := by
    intro member
    rw [Nat.toString_eq_repr, Nat.toList_repr] at member
    exact absurd (Nat.isDigit_of_mem_toDigits (by decide) (by decide) member) (by decide)
  have parts (model kind : String) (n : Nat) :
      (model ++ "_" ++ kind ++ "_" ++ toString n).toList =
        (model.toList ++ '_' :: kind.toList) ++ '_' :: (toString n).toList := by
    simp [String.toList_append]
  rw [← String.toList_inj, parts, parts, append_cons_inj_last (digits count) (digits count'),
    append_cons_inj_last plain plain', String.toList_inj, String.toList_inj, repr_inj, and_assoc]

section Readings

variable {R : Type}

/-- A table of a schema has an index at a place, and the attribute that the index is made from has
the same place among those of the model that make indexes. -/
structure IndexAt (keywords : PrismaKeywords) (models : List Model) (schema : Schema R)
    (table place : Nat) (attr : Attribute) (index : Index) : Prop where
  listed : ∃ found, schema.tables[table]? = some found ∧ found.indexes[place]? = some index
  written : ∃ model, models[table]? = some model ∧
    (model.indexAttributes keywords)[place]? = some attr

/-- The indexes of a table are those that the attributes of a model make, one after the other. -/
structure Model.MakesIndexes (keywords : PrismaKeywords) (model : Model) (table : Table R) : Prop where
  id : table.id = model.name
  indexes : table.indexes = (model.indexAttributes keywords).mapIdx fun place attr =>
    attr.index keywords model.name place

theorem Model.Makes.makesIndexes {config : Config R} {models enums : List String} {model : Model}
    {table : Table R} (makes : model.Makes config models enums table) :
    model.MakesIndexes config.prismaKeywords table :=
  ⟨makes.id, makes.indexes.trans (indexes_marks _)⟩

section Made

variable {keywords : PrismaKeywords} {models : List Model} {schema : Schema R} {table place : Nat}
  {attr : Attribute} {index : Index}
  (makes : List.Forall₂ (Model.MakesIndexes keywords) models schema.tables)

include makes

theorem exists_indexAt {model : Model} (present : models[table]? = some model)
    (written : (model.indexAttributes keywords)[place]? = some attr) :
    ∃ index, IndexAt keywords models schema table place attr index := by
  obtain ⟨found, here, made⟩ := exists_getElem?_of_forall₂ makes.flip present
  have listed : found.indexes[place]? = some (attr.index keywords model.name place) := by
    rw [made.indexes, List.getElem?_mapIdx, written, Option.map_some]
  exact ⟨_, ⟨found, here, listed⟩, model, present, written⟩

theorem IndexAt.index_eq (made : IndexAt keywords models schema table place attr index) :
    ∃ model, models[table]? = some model ∧ attr.name ∈ keywords.indexAttributes ∧
      index = attr.index keywords model.name place := by
  obtain ⟨⟨found, here, listed⟩, model, present, written⟩ := made
  obtain ⟨found', here', made⟩ := exists_getElem?_of_forall₂ makes.flip present
  cases here.symm.trans here'
  rw [made.indexes, List.getElem?_mapIdx, written] at listed
  have lists := (List.mem_filter.mp (List.mem_of_getElem? written)).2
  exact ⟨model, present, Attribute.mem_indexAttributes (of_decide_eq_true lists),
    (Option.some.inj listed).symm⟩

/-- Two indexes that are not named have different names, as long as no keyword of an index holds the
mark that joins the parts of a made name. -/
theorem IndexAt.place_unique (distinct : Distinct models)
    (plain : ∀ kind ∈ keywords.indexAttributes, '_' ∉ kind.toList) {table' place' : Nat}
    {attr' : Attribute} {index' : Index}
    (made : IndexAt keywords models schema table place attr index)
    (made' : IndexAt keywords models schema table' place' attr' index') (unnamed : attr.IsUnnamed)
    (unnamed' : attr'.IsUnnamed) (same : index.name = index'.name) :
    table = table' ∧ place = place' := by
  -- Equal names have the same model in them and the same number; the number is the place of the
  -- index, and the model stands at one place only.
  obtain ⟨model, present, kind, rfl⟩ := made.index_eq makes
  obtain ⟨model', present', kind', rfl⟩ := made'.index_eq makes
  have names : TableMarks.indexName model.name place attr =
      TableMarks.indexName model'.name place' attr' := same
  rw [unnamed.indexName, unnamed'.indexName, madeName_inj (plain _ kind) (plain _ kind')] at names
  obtain ⟨owner, -, number⟩ := names
  have first : (models.map (·.name))[table]? = some model.name := by
    rw [List.getElem?_map, present, Option.map_some]
  have second : (models.map (·.name))[table']? = some model.name := by
    rw [List.getElem?_map, present', Option.map_some, owner]
  have within := (List.getElem?_eq_some_iff.mp first).1
  exact ⟨(List.getElem?_inj within distinct).mp (first.trans second.symm), number⟩

end Made

variable [Coordinate R] {config : Config R} {draws : Nat → R} {schema : Schema R}

/-- Every index of a schema is made from an attribute of its model, and any two whose attributes
leave them without a name have different names, be they of one table or of two. -/
theorem made_names_differ (keywords : config.prismaKeywords = {}) {text : List Char}
    (read : (readSchema config draws text).outcome = .ok schema) :
    ∃ models enums, (collect {} (stripComments text)).outcome = .ok (models, enums) ∧
      List.Forall₂ (Model.MakesIndexes {}) models schema.tables ∧
      ∀ {table place table' place' : Nat} {attr attr' : Attribute} {index index' : Index},
        IndexAt {} models schema table place attr index →
        IndexAt {} models schema table' place' attr' index' →
        attr.IsUnnamed → attr'.IsUnnamed → (table, place) ≠ (table', place') →
          index.name ≠ index'.name := by
  obtain ⟨models, enums, collected, -, -, tables⟩ := makes_of_readSchema read
  have makes := tables.imp fun _ _ makes => Model.Makes.makesIndexes makes
  have distinct : Distinct models := (collect_keeps _ _).value _ collected
  rw [keywords] at collected makes
  refine ⟨models, enums, collected, makes, ?_⟩
  intro table place table' place' attr attr' index index' made made' unnamed unnamed' apart same
  obtain ⟨rfl, rfl⟩ := made.place_unique makes distinct (by decide) made' unnamed unnamed' same
  exact apart rfl

/-- Two models, the second of which is called what the first index of the other is. -/
def lookalikes : List Char :=
  ("model A \x7b\n  id Int @id\n  @@index([id])\n  @@index([id], map: \"short\")\n" ++
    "  @@unique([id])\n\x7d\nmodel A_index_0 \x7b\n  id Int @id\n  @@unique([id])\n\x7d\n").toList

theorem made_names_differ_lookalikes : ∃ models enums schema,
    (collect {} (stripComments lookalikes)).outcome = .ok (models, enums) ∧
      (readSchema (Config.default : Config Int) (fun _ => 0) lookalikes).outcome = .ok schema ∧
      schema.tables.map (·.indexes.map (·.name)) =
        [["A_index_0", "short", "A_unique_2"], ["A_index_0_unique_0"]] ∧
      ∃ attr attr' index index', IndexAt {} models schema 0 2 attr index ∧
        IndexAt {} models schema 1 0 attr' index' ∧ attr.IsUnnamed ∧ attr'.IsUnnamed ∧
        index.name ≠ index'.name := by
  have read : (readSchema (Config.default : Config Int) (fun _ => 0) lookalikes).outcome.toOption.map
      (·.tables.map (·.indexes.map (·.name))) =
      some [["A_index_0", "short", "A_unique_2"], ["A_index_0_unique_0"]] := by
    decide +kernel
  have flags : (collect {} (stripComments lookalikes)).outcome.toOption.map (fun found =>
      found.1.map fun model => (model.indexAttributes {}).map fun attr => decide attr.IsUnnamed) =
      some [[true, false, true], [true]] := by
    decide +kernel
  obtain ⟨schema, held, names⟩ := Option.map_eq_some_iff.mp read
  have found := toOption_eq_some.mp held
  obtain ⟨models, enums, collected, makes, differ⟩ := made_names_differ rfl found
  rw [collected] at flags
  have unnamed (table place : Nat)
      (flag : [[true, false, true], [true]][table]?.bind (·[place]?) = some true) :
      ∃ attr index, IndexAt {} models schema table place attr index ∧ attr.IsUnnamed := by
    rw [← Option.some.inj flags, List.getElem?_map] at flag
    obtain ⟨row, entered, flagged⟩ := Option.bind_eq_some_iff.mp flag
    obtain ⟨model, present, rfl⟩ := Option.map_eq_some_iff.mp entered
    rw [List.getElem?_map] at flagged
    obtain ⟨attr, written, bare⟩ := Option.map_eq_some_iff.mp flagged
    obtain ⟨index, made⟩ := exists_indexAt makes present written
    exact ⟨attr, index, made, of_decide_eq_true bare⟩
  obtain ⟨attr, index, made, bare⟩ := unnamed 0 2 rfl
  obtain ⟨attr', index', made', bare'⟩ := unnamed 1 0 rfl
  exact ⟨models, enums, schema, collected, found, names, attr, attr', index, index', made, made',
    bare, bare', differ made made' bare bare' (by decide)⟩

end Readings

end SchemaAtlas.Blocks
