import SchemaAtlas.Proofs.Blocks.Arguments
import SchemaAtlas.Proofs.Blocks.Naming

/-!
Attributes of indexes: the names of a list become the columns of an index, in their order, and belong
to the key of the table if the attribute is that of keys.
-/

set_option autoImplicit false

namespace SchemaAtlas

/-- A table has an index that is made from an attribute of its model, and the columns of a key belong
to the key of the table. -/
structure Table.Lists {R : Type} (keywords : PrismaKeywords) (kind : String) (columns : List String)
    (table : Table R) : Prop where
  index : ∃ before behind, table.indexes = before ++
    { name := table.id ++ "_" ++ kind ++ "_" ++ toString before.length, columns
      isUnique := kind ∈ keywords.uniqueIndexAttributes } :: behind
  key : kind = keywords.idAttribute → ∀ column ∈ table.columns, column.name ∈ columns →
    column.isPrimaryKey = true

namespace Blocks

open Text

theorem toList_joinWith (names : List String) :
    (joinWith ", " names).toList = [',', ' '].intercalate (names.map String.toList) := by
  induction names with
  | nil => rfl
  | cons name names ih =>
    cases names with
    | nil => simp [joinWith, List.intercalate_singleton]
    | cons second names =>
      have step : joinWith ", " (name :: second :: names) =
          name ++ ", " ++ joinWith ", " (second :: names) := rfl
      rw [step, String.toList_append, ih]
      simp [List.intercalate_cons_cons]

section Names

variable {names : List String} (words : ∀ name ∈ names, IsWordText name.toList)

include words

theorem arguments_names : ∀ cs ∈ names.map String.toList, IsArgument cs := by
  intro cs member
  obtain ⟨name, listed, rfl⟩ := List.mem_map.mp member
  exact .word (words name listed)

theorem calm_joinWith {c : Char} (member : c ∈ (joinWith ", " names).toList) :
    isWord c = true ∨ c = ',' ∨ c = ' ' := by
  rw [toList_joinWith] at member
  cases names with
  | nil => cases member
  | cons name names =>
    rw [List.map_cons, intercalate_cons, List.mem_append, List.mem_flatMap] at member
    rcases member with first | ⟨_, listed, inside⟩
    · exact .inl ((words name (.head _)).2 c first)
    · obtain ⟨other, present, rfl⟩ := List.mem_map.mp listed
      simp only [List.cons_append, List.nil_append, List.mem_cons] at inside
      rcases inside with comma | space | letter
      · exact .inr (.inl comma)
      · exact .inr (.inr space)
      · exact .inl ((words other (.tail _ present)).2 c letter)

theorem inline_joinWith :
    Written.IsInline (joinWith ", " names).toList ∧ '\n' ∉ (joinWith ", " names).toList := by
  refine ⟨.of_calm fun c member => ?_, fun member => absurd (calm_joinWith words member) (by decide)⟩
  rcases calm_joinWith words member with word | rfl | rfl
  · exact Written.isCalm_of_isWord word
  · rfl
  · rfl

theorem listNames_joinWith :
    listNames ('[' :: (joinWith ", " names).toList ++ [']']) = names := by
  have nested := (inline_joinWith words).1.nested
  have group : closeGroup? '[' ((joinWith ", " names).toList ++ [']']) =
      some ((joinWith ", " names).toList, []) :=
    nested.closeGroup?_append rfl []
  have split : splitCommas (joinWith ", " names).toList = names.map String.toList := by
    rw [toList_joinWith, splitCommas_arguments (arguments_names words)]
  have head : ('[' :: (joinWith ", " names).toList ++ [']']).dropWhile (· ≠ '[') =
      '[' :: ((joinWith ", " names).toList ++ [']']) := rfl
  simp only [listNames, head, group, split, List.filterMap_map]
  refine (List.filterMap_congr fun name member => ?_).trans List.filterMap_some
  have word := words name member
  have taken : takeWord? (name.toList ++ []) = some (name.toList, []) :=
    takeWord?_append word (by simp)
  rw [List.append_nil] at taken
  simp [trimLeft_eq_self fun c first => word.solid c (List.mem_of_head? first), taken]

end Names

section Marks

variable {keywords : PrismaKeywords} {model : String}

namespace TableMarks

/-- One of the indexes is made from an attribute that lists these columns, numbered by those in front
of it; for the attribute of keys the columns belong to the key. -/
structure Lists (keywords : PrismaKeywords) (model kind : String) (columns : List String)
    (marks : TableMarks) : Prop where
  index : ∃ before behind, marks.indexes = before ++
    { name := model ++ "_" ++ kind ++ "_" ++ toString before.length, columns
      isUnique := kind ∈ keywords.uniqueIndexAttributes } :: behind
  key : kind = keywords.idAttribute → ∀ column ∈ columns, column ∈ marks.compositeKey

theorem Lists.foldl_add {kind : String} {columns : List String} {marks : TableMarks}
    (lists : marks.Lists keywords model kind columns) (attributes : List Attribute) :
    (attributes.foldl (add keywords model) marks).Lists keywords model kind columns := by
  obtain ⟨⟨more, indexes⟩, key⟩ : _ ∧ _ := prefix_foldl_add attributes marks
  obtain ⟨before, behind, listed⟩ := lists.index
  refine ⟨⟨before, behind ++ more, ?_⟩, fun same column member =>
    key.subset (lists.key same column member)⟩
  rw [← indexes, listed, List.append_assoc, List.cons_append]

end TableMarks

namespace Written.Attribute.HasArgument

variable {attr : Attribute} {arg : List Char}

theorem lists_add (given : attr.HasArgument arg) (apart : attr.name ≠ keywords.mapAttribute)
    (known : attr.name ∈ keywords.indexAttributes) (some : listNames arg ≠ []) (marks : TableMarks) :
    (marks.add keywords model attr.read).Lists keywords model attr.name (listNames arg) := by
  have args : attr.read.args = [String.ofList arg] := by rw [given.read_eq]
  have unnamed : attr.read.IsUnnamed := by
    rw [Blocks.Attribute.IsUnnamed, given.named?_read, given.named?_read]
    exact ⟨rfl, rfl⟩
  have columns : attr.read.indexColumns keywords = listNames arg := by
    have fields : (TableMarks.nonEmpty? (attr.read.named? "fields")).getD (String.ofList arg) =
        String.ofList arg := by
      rw [given.named?_read]
      rfl
    simp only [Blocks.Attribute.indexColumns, args]
    rw [read_name, if_pos ⟨apart, known⟩, fields, String.toList_ofList]
  rw [TableMarks.add_eq, columns, if_neg some, Blocks.Attribute.index, unnamed.indexName, columns,
    read_name]
  refine ⟨⟨marks.indexes, [], rfl⟩, fun key column member => ?_⟩
  rw [if_pos key]
  exact List.mem_append_right _ member

end Written.Attribute.HasArgument

theorem Model.lists_marks {attr : Written.Attribute} {arg : List Char} (given : attr.HasArgument arg)
    (apart : attr.name ≠ keywords.mapAttribute) (known : attr.name ∈ keywords.indexAttributes)
    (some : listNames arg ≠ []) (model : Model) (before behind : List Attribute) :
    ((model.withAttribute before behind attr.read).marks keywords).Lists keywords model.name
      attr.name (listNames arg) := by
  rw [marks, withAttribute, List.foldl_append, List.foldl_cons]
  exact (given.lists_add apart known some _).foldl_add behind

end Marks

theorem Model.Makes.lists {R : Type} {config : Config R} {models enums columns : List String}
    {kind : String} {model : Model} {table : Table R} (makes : model.Makes config models enums table)
    (lists : (model.marks config.prismaKeywords).Lists config.prismaKeywords model.name kind
      columns) : table.Lists config.prismaKeywords kind columns := by
  refine ⟨?_, fun key column member named => ?_⟩
  · rw [makes.indexes, makes.id]
    exact lists.index
  · obtain ⟨field, -, made⟩ := exists_of_forall₂ makes.columns member
    rw [made.isPrimaryKey, Bool.or_eq_true, decide_eq_true_eq, ← made.name]
    exact .inr (lists.key key _ named)

section Readings

variable {R : Type} [Coordinate R] {config : Config R} {draws : Nat → R} {front inside : List Char}
  {earlier : List Block} {name : String} {attr : Written.Attribute} {arg : List Char}

/-- Where a text with an attribute in a model is read, there is a table of that model with the
attribute, as long as the model is not declared again. -/
theorem makes_of_insert (known : AreKeywords config.prismaKeywords)
    (place : InModel config.prismaKeywords front earlier name inside) (call : attr.IsCall)
    {back : List Char} {schema : Schema R}
    (read : (readSchema config draws (front ++ (attr.blockText ++ back))).outcome = .ok schema) :
    ∃ around : Surroundings config.prismaKeywords.modelKeyword (stripComments front) earlier name
        inside (stripComments back),
      name ∉ around.later.map (·.name) → ∃ table ∈ schema.tables, ∃ models enums,
        (around.modelWith attr).Makes config models enums table := by
  obtain ⟨models, enums, collected, -, -, tables⟩ := makes_of_readSchema read
  rw [call.stripComments_blockText place.code] at collected
  rcases readBlocks_insert place.opened place.starts (known.word .model) (stripComments back) with
    ⟨fault, failed⟩ | ⟨⟨around⟩⟩
  next =>
    -- A text whose models cannot be read gives no schema.
    obtain ⟨-, declared, refused, -⟩ := collect_eq_ok.mp collected
    cases (failed attr call).symm.trans refused
  next =>
    refine ⟨around, fun last => ?_⟩
    have split := congrArg BlockScan.blocks (around.scan attr call)
    obtain ⟨model, member, made⟩ := mem_of_collect collected split last
    cases made.symm.trans (around.made attr call)
    obtain ⟨table, present, makes⟩ := exists_of_forall₂ tables.flip member
    exact ⟨table, present, _, _, makes⟩

end Readings

end Blocks

end SchemaAtlas
