import SchemaAtlas.Proofs.Blocks.Built
import SchemaAtlas.Proofs.Text.Splits

/-!
Plain schemas: scalar fields of known types with attributes that carry at most a word. What a
reading block by block makes of their fields.
-/

set_option autoImplicit false

namespace SchemaAtlas.Blocks.Written

open Text

/-- The attributes of plain fields: a default is a word or a call without arguments. -/
inductive Attribute.IsPlain : Attribute → Prop
  | id : IsPlain { name := "id" }
  | unique : IsPlain { name := "unique" }
  | updatedAt : IsPlain { name := "updatedAt" }
  | word {word : String} (isWordText : IsWordText word.toList) :
      IsPlain { name := "default", args := some word }
  | call {word : String} (isWordText : IsWordText word.toList) :
      IsPlain { name := "default", args := some (word ++ "()") }

structure Field.IsPlain (field : Field) : Prop where
  name : IsWordText field.name.toList
  type : field.type ∈ TypeMap.prisma.typeNames
  single : field.suffix ≠ .list
  attributes : ∀ attr ∈ field.attributes, attr.IsPlain

structure Model.IsPlain (model : Model) : Prop where
  name : IsWordText model.name.toList
  some : model.fields ≠ []
  fields : ∀ field ∈ model.fields, field.IsPlain

/-- Some blocks: enumerations of words, and models of different names with scalar fields only. -/
structure IsPlain (blocks : List Block) : Prop where
  some : blocks ≠ []
  enums : ∀ enum ∈ enumerations blocks,
    IsWordText enum.name.toList ∧ ∀ value ∈ enum.values, IsWordText value.toList
  each : ∀ model ∈ models blocks, model.IsPlain
  scalar : ∀ model ∈ models blocks, ∀ field ∈ model.fields,
    field.type ∉ (models blocks).map (·.name)
  distinct : ((models blocks).map (·.name)).Nodup

/-- The column type that the dictionary has for the type of a field. -/
def Field.plainType (field : Field) : String := (TypeMap.prisma.resolve field.type).getD ""

/-- The column type of a field that may be a counting key. -/
def Field.keyType (field : Field) : String := ((field.read 0).serialType? {}).getD field.plainType

/-- A column stands for a field, with a type of its own. -/
structure Field.IsColumn (types : Field → String) (field : Field) (column : Column) : Prop where
  name : column.name = field.name
  type : column.type = types field
  isPrimaryKey : column.isPrimaryKey = true ↔ ∃ attr ∈ field.attributes, attr.name = "id"
  isUnique : column.isUnique = true ↔ ∃ attr ∈ field.attributes, attr.name = "unique"
  isNotNull : column.isNotNull = true ↔ field.suffix ≠ .optional
  references : column.references = none

/-- A key whose default mentions the generator of counting keys. -/
def Field.CountsUp (field : Field) : Prop :=
  (field.type = "Int" ∨ field.type = "BigInt") ∧
    (∃ attr ∈ field.attributes, attr.name = "id") ∧
      ∃ args, (field.attributes.find? (·.name = "default")).bind (·.args) = some args ∧
        "autoincrement()".toList <:+: args.toList

namespace Attribute.IsPlain

variable {attr : Attribute}

theorem name_mem (plain : attr.IsPlain) :
    attr.name ∈ ["id", "unique", "updatedAt", "default"] := by
  cases plain <;> simp

theorem isArguments_word {cs : List Char} (word : IsWordText cs) : IsArguments cs :=
  .of_braceless (.of_plain fun c member => isPlain_of_isWord (word.2 c member))
    (word.not_mem (by decide)) (word.not_mem (by decide)) (isItem_of_isWordText word).uncommented
    (word.not_mem (by decide))

theorem isArguments_call {cs : List Char} (word : IsWordText cs) :
    IsArguments (cs ++ ['(', ')']) := by
  have inline : IsInline (cs ++ ['(', ')']) :=
    (isItem_of_isWordText word).toIsInline.append
      (@IsInline.group '(' ')' [] [] rfl (by decide) .nil .nil) (by simp)
  have absent {c : Char} (outside : isWord c = false) (other : c ∉ ['(', ')']) :
      c ∉ cs ++ ['(', ')'] := by
    rw [List.mem_append, not_or]
    exact ⟨word.not_mem outside, other⟩
  exact .of_braceless inline.nested (absent rfl (by decide)) (absent rfl (by decide))
    inline.uncommented (absent rfl (by decide))

theorem wellFormed (plain : attr.IsPlain) : attr.WellFormed := by
  have named : "default" ≠ "" := by decide
  have inside : ∀ c ∈ "default".toList, Blocks.Attribute.isNameChar c = true := by decide
  cases plain with
  | id => exact ⟨by decide, by decide, nofun⟩
  | unique => exact ⟨by decide, by decide, nofun⟩
  | updatedAt => exact ⟨by decide, by decide, nofun⟩
  | word isWordText =>
    refine ⟨named, inside, ?_⟩
    rintro _ ⟨⟩
    exact isArguments_word isWordText
  | call isWordText =>
    refine ⟨named, inside, ?_⟩
    rintro _ ⟨⟩
    rw [String.toList_append]
    exact isArguments_call isWordText

/-- What stands in the parentheses of a plain attribute is one argument. -/
theorem args_read (plain : attr.IsPlain) : attr.read.args = attr.args.toList := by
  have one {cs : List Char} (word : IsWordText cs) (marks : List Char)
      (outside : ∀ c ∈ marks, c = '(' ∨ c = ')') : splitCommas (cs ++ marks) = [cs ++ marks] := by
    refine splitCommas_whole (by simp [word.1]) ?_ fun c member => ?_
    · rw [List.mem_append, not_or]
      refine ⟨word.not_mem (by decide), fun member => ?_⟩
      rcases outside _ member with same | same <;> cases same
    · rcases List.mem_append.mp member with inside | mark
      · exact isBlank_of_isWord (word.2 c inside)
      · rcases outside c mark with rfl | rfl <;> rfl
  cases plain with
  | id => rfl
  | unique => rfl
  | updatedAt => rfl
  | @word word isWordText =>
    have whole := one isWordText [] (by simp)
    rw [List.append_nil] at whole
    simp [read, Blocks.Attribute.ofRawArgs, whole]
  | @call word isWordText =>
    have whole := one isWordText ['(', ')'] (by simp)
    have text : (word ++ "()").toList = word.toList ++ ['(', ')'] := String.toList_append
    simp only [read, Blocks.Attribute.ofRawArgs, text, whole]
    simp [String.ofList_append]

end Attribute.IsPlain

namespace Field.IsPlain

variable {field : Field}

theorem wellFormed (plain : field.IsPlain) : field.WellFormed where
  name := plain.name
  type := by
    have words : ∀ name ∈ TypeMap.prisma.typeNames, IsWordText name.toList := by decide
    exact words _ plain.type
  attributes attr member := (plain.attributes attr member).wellFormed

theorem plainType_eq (plain : field.IsPlain) :
    TypeMap.prisma.resolve field.type = some field.plainType ∧ field.plainType ≠ "" := by
  have known : ∀ name ∈ TypeMap.prisma.typeNames, (TypeMap.prisma.resolve name).isSome = true ∧
      (TypeMap.prisma.resolve name).getD "" ≠ "" := by decide
  obtain ⟨found, some⟩ := known field.type plain.type
  refine ⟨?_, some⟩
  rw [plainType]
  cases same : TypeMap.prisma.resolve field.type with
  | none => simp [same] at found
  | some type => rfl

theorem nativeType?_read (plain : field.IsPlain) (line : Nat) :
    (field.read line).nativeType? {} = none := by
  rw [Blocks.Field.nativeType?, List.findSome?_eq_none_iff]
  intro attr member
  obtain ⟨written, inside, rfl⟩ := List.mem_map.mp member
  have foreign : ∀ name ∈ ["id", "unique", "updatedAt", "default"],
      dropLiteral? ({} : PrismaKeywords).nativeTypeMark.toList name.toList = none := by decide
  have here := foreign _ (plain.attributes written inside).name_mem
  rw [Attribute.read_name, here]
  rfl

theorem defaultArg?_read (plain : field.IsPlain) (line : Nat) :
    (field.read line).defaultArg? {} =
      (field.attributes.find? (·.name = "default")).bind (·.args) := by
  have first : (field.read line).attribute? "default" =
      (field.attributes.find? (·.name = "default")).map Attribute.read := by
    have named : (fun attr : Blocks.Attribute => decide (attr.name = "default")) ∘ Attribute.read =
        fun attr => decide (attr.name = "default") :=
      funext fun attr => by rw [Function.comp_apply, Attribute.read_name]
    rw [Blocks.Field.attribute?, read, List.find?_map, named]
  rw [Blocks.Field.defaultArg?, first]
  cases found : field.attributes.find? (·.name = "default") with
  | none => rfl
  | some attr =>
    have whole := (plain.attributes attr (List.mem_of_find?_eq_some found)).args_read
    cases held : attr.args <;> simp [whole, held]

theorem serialType?_mem {field : Blocks.Field} {serial : String}
    (found : field.serialType? {} = some serial) : serial ∈ ["serial", "bigserial"] := by
  unfold Blocks.Field.serialType? at found
  simp only at found
  split at found
  next =>
    obtain ⟨entry, member, rfl⟩ := Option.map_eq_some_iff.mp found
    exact List.mem_map.mpr ⟨entry, List.mem_of_find?_eq_some member, rfl⟩
  next => cases found

/-- A field has a serial type exactly if it counts up. -/
theorem serialType?_isSome_iff (plain : field.IsPlain) (line : Nat) :
    ((field.read line).serialType? {}).isSome = true ↔ field.CountsUp := by
  have kinds : (({} : PrismaKeywords).serialTypes.find? (·.1 = field.type)).isSome = true ↔
      field.type = "Int" ∨ field.type = "BigInt" := by
    rw [List.find?_isSome]
    constructor
    · rintro ⟨entry, member, same⟩
      rw [decide_eq_true_eq] at same
      rcases List.mem_pair.mp member with rfl | rfl
      · exact .inl same.symm
      · exact .inr same.symm
    · rintro (same | same)
      · exact ⟨_, .head _, decide_eq_true same.symm⟩
      · exact ⟨_, .tail _ (.head _), decide_eq_true same.symm⟩
  have counts : ((field.read line).defaultArg? {}).any (fun arg =>
      arg ≠ "" ∧ contains ({} : PrismaKeywords).autoincrementGenerator.toList arg.toList) = true ↔
        ∃ args, (field.attributes.find? (·.name = "default")).bind (·.args) = some args ∧
          "autoincrement()".toList <:+: args.toList := by
    rw [plain.defaultArg?_read]
    cases (field.attributes.find? (·.name = "default")).bind (·.args) with
    | none => exact ⟨nofun, nofun⟩
    | some args =>
      rw [Option.any_some, decide_eq_true_eq, contains_iff]
      constructor
      · exact fun both => ⟨args, rfl, both.2⟩
      · rintro ⟨_, ⟨⟩, inside⟩
        refine ⟨?_, inside⟩
        rintro rfl
        exact absurd inside (by decide)
  have key := hasAttribute_read field line "id"
  rw [Blocks.Field.serialType?, Field.CountsUp, ← kinds, ← counts, ← key]
  simp only
  split
  next both =>
    obtain ⟨isKey, mentions⟩ := Bool.and_eq_true_iff.mp both
    rw [Option.isSome_map]
    exact ⟨fun kind => ⟨kind, isKey, mentions⟩, fun all => all.1⟩
  next other =>
    refine ⟨nofun, fun all => absurd ?_ other⟩
    exact Bool.and_eq_true_iff.mpr ⟨all.2.1, all.2.2⟩

theorem columnType_read (plain : field.IsPlain) (enums : List String) (line : Nat) :
    (field.read line).columnType {} TypeMap.prisma.provider enums = .ok field.keyType := by
  have serial : (field.read line).serialType? {} = (field.read 0).serialType? {} := rfl
  have resolved : TypeMap.prisma.provider.resolve (field.read line).type =
      .ok (some field.plainType) := congrArg Except.ok plain.plainType_eq.1
  rw [Blocks.Field.columnType, plain.nativeType?_read, serial, keyType]
  cases (field.read 0).serialType? {} with
  | none => simp [resolved]
  | some serial => rfl

theorem keyType_ne_empty (plain : field.IsPlain) : field.keyType ≠ "" := by
  rw [keyType]
  cases found : (field.read 0).serialType? {} with
  | none => exact plain.plainType_eq.2
  | some serial =>
    have known : ∀ serial ∈ ["serial", "bigserial"], serial ≠ "" := by decide
    exact known serial (serialType?_mem found)

/-- A plain field is read as a column, with a serial type if it is a counting key. -/
theorem column_read (plain : field.IsPlain) (enums : List String) (line : Nat) :
    ∃ column, (field.read line).column {} TypeMap.prisma.provider enums [] none = .ok column ∧
      field.IsColumn keyType column := by
  have named : field.name ≠ "" := fun same => plain.name.1 (by simp [same])
  have single : (field.read line).isArray = false := by simp [read, plain.single]
  have whole : (if (field.read line).isArray = true then field.keyType ++ "[]"
      else field.keyType) ≠ "" := by
    simpa [single] using plain.keyType_ne_empty
  refine ⟨_, Blocks.Field.column_of_type (plain.columnType_read enums line) named whole none, ?_⟩
  constructor
  case name => rfl
  case type => simp [single]
  case isPrimaryKey => simpa using hasAttribute_read field line "id"
  case isUnique => exact hasAttribute_read field line "unique"
  case isNotNull => simp [read]
  case references => rfl

/-- The generator of counting keys gives a key a type that the dictionary does not give. -/
theorem keyType_eq_plainType_iff (plain : field.IsPlain) :
    field.keyType = field.plainType ↔ ¬ field.CountsUp := by
  have apart : ∀ name ∈ TypeMap.prisma.typeNames, ∀ serial ∈ ["serial", "bigserial"],
      serial ≠ (TypeMap.prisma.resolve name).getD "" := by decide
  rw [← plain.serialType?_isSome_iff 0, keyType]
  cases found : (field.read 0).serialType? {} with
  | none => simp
  | some serial =>
    have other := apart _ plain.type serial (serialType?_mem found)
    simpa [plainType] using other

end Field.IsPlain

theorem IsPlain.wellFormed {blocks : List Block} (plain : IsPlain blocks) : WellFormed blocks where
  some := plain.some
  each block member := by
    cases block with
    | enumeration enum => exact plain.enums enum (List.mem_filterMap.mpr ⟨_, member, rfl⟩)
    | model declared =>
      have here := plain.each declared (List.mem_filterMap.mpr ⟨_, member, rfl⟩)
      exact ⟨here.name, fun field inside => (here.fields field inside).wellFormed⟩
  distinct := plain.distinct

namespace IsPlain

variable {blocks : List Block}

theorem scalars (plain : IsPlain blocks) {model : Model} (member : model ∈ models blocks) :
    model.scalars (models blocks) = model.fields :=
  List.filter_eq_self.mpr fun field inside => by simpa using plain.scalar model member field inside

/-- Fields of scalar types relate no models. -/
theorem relationships_read (plain : IsPlain blocks) {read : List Blocks.Model}
    (pairs : List.Forall₂ Model.Reads (models blocks) read) {model : Blocks.Model}
    (member : model ∈ read) :
    (model.relationships {} read).Returns fun found => ∀ r ∈ found, False := by
  have names := names_of_reads pairs
  have scalar : ∀ field ∈ model.fields, field.type ∉ read.map (·.name) := by
    intro field inside
    obtain ⟨written, declared, reads⟩ := exists_of_forall₂ pairs member
    obtain ⟨source, within, line, rfl⟩ := exists_of_forall₂ reads.fields inside
    rw [names]
    exact plain.scalar written declared source within
  have each : ∀ field ∈ model.fields, (model.relationsOfField {} read field).Returns
      fun found => ∀ r ∈ found, False := by
    intro field inside
    have none : read.find? (·.name = field.type) = none := by
      rw [List.find?_eq_none]
      intro other here same
      exact scalar field inside (List.mem_map.mpr ⟨other, here, of_decide_eq_true same⟩)
    rw [Blocks.Model.relationsOfField, none]
    exact .pure (by simp)
  refine (Journaled.Returns.mapM model.fields each).bind fun found all => .pure ?_
  intro r within
  obtain ⟨some, inside, here⟩ := List.mem_flatten.mp within
  exact all some inside r here

variable {R : Type} [Coordinate R]

/-- A plain schema read block by block. -/
theorem readSchema_text (plain : IsPlain blocks) (indent : Nat) (draws : Nat → R) :
    (readSchema Config.default draws (text indent blocks)).Returns fun schema =>
      schema.enums = enumerations blocks ∧
        List.Forall₂ (fun (model, place) => model.IsTable (Field.IsColumn Field.keyType)
          Layout.default draws model.fields place) (models blocks).zipIdx schema.tables := by
  have each : ReadsColumns (models blocks) (fun _ => False) (Field.IsColumn Field.keyType) := by
    intro relationships none enums model member field inside line
    obtain rfl := List.eq_nil_iff_forall_not_mem.mpr none
    have here := (plain.each model member).fields field (List.mem_of_mem_filter inside)
    exact here.column_read enums line
  have read := readSchema_written plain.wellFormed indent draws
    (fun read pairs model member => plain.relationships_read pairs member) each
  refine read.imp fun schema ⟨enums, tables⟩ => ⟨enums, ?_⟩
  have members : ∀ entry ∈ (models blocks).zipIdx, entry.1 ∈ models blocks := fun _ member =>
    List.fst_mem_of_mem_zipIdx member
  refine ((List.forall₂_and_left _ _).mpr ⟨members, tables⟩).imp
    fun (model, place) table ⟨member, built⟩ => ?_
  simpa only [plain.scalars member] using built

end IsPlain

end SchemaAtlas.Blocks.Written
