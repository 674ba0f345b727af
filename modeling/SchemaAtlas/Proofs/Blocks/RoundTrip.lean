import SchemaAtlas.Proofs.Blocks.Built
import SchemaAtlas.Proofs.Blocks.Parts

/-!
Reading a written schema: nothing of it is lost. It has the enumerations that were written and a
table for each model, the columns of which say what the fields said.
-/

set_option autoImplicit false

namespace SchemaAtlas.Blocks.Written

open Text

/-- A column says of a field what its text says. -/
structure Field.DescribedBy (field : Field) (column : Column) : Prop where
  name : column.name = field.name
  isNotNull : column.isNotNull = true ↔ field.suffix ≠ .optional
  isList : ['[', ']'] <:+ column.type.toList ↔ field.suffix = .list
  isPrimaryKey : column.isPrimaryKey = true ↔ ∃ attr ∈ field.attributes, attr.name = "id"
  isUnique : column.isUnique = true ↔ ∃ attr ∈ field.attributes, attr.name = "unique"

/-- A table has a column for each field of a model that names no model. -/
structure Model.DescribedBy {R : Type} (models : List Model) (model : Model) (table : Table R) :
    Prop where
  id : table.id = model.name
  name : table.name = model.name
  columns : List.Forall₂ Field.DescribedBy (model.scalars models) table.columns

/-- A schema holds what some blocks say, in their order. -/
structure DescribedBy {R : Type} (blocks : List Block) (schema : Schema R) : Prop where
  enums : schema.enums = enumerations blocks
  tables : List.Forall₂ (Model.DescribedBy (models blocks)) (models blocks) schema.tables

/-- A type that is there and not that of a list. -/
structure IsElementType (type : String) : Prop where
  some : type ≠ ""
  single : ¬ ['[', ']'] <:+ type.toList

theorem IsElementType.of_absent {cs : List Char} (some : cs ≠ []) (absent : ']' ∉ cs) :
    IsElementType (String.ofList cs) where
  some same := some (by simpa using congrArg String.toList same)
  single behind := absent ((by simpa using behind : ['[', ']'] <:+ cs).subset (by simp))

theorem IsElementType.parenthesized (front : String) : IsElementType (front ++ ")") where
  some same := by simpa using congrArg String.toList same
  single behind := by
    have turned := List.reverse_prefix.mpr behind
    simp at turned

namespace Field

variable {field : Field}

theorem WellFormed.nativeType?_read (formed : field.WellFormed) (line : Nat) {native : String}
    (found : (field.read line).nativeType? {} = some native) : IsElementType native := by
  obtain ⟨attr, member, named⟩ := List.exists_of_findSome?_eq_some found
  obtain ⟨written, inside, rfl⟩ := List.mem_map.mp member
  obtain ⟨name, dropped, named⟩ := Option.bind_eq_some_iff.mp named
  rw [Attribute.read_name] at dropped
  have absent : ']' ∉ name := fun bracket => by
    have within : ']' ∈ written.name.toList := by
      rw [eq_append_of_dropLiteral? dropped]
      exact List.mem_append_right _ bracket
    cases (formed.attributes written inside).name _ within
  split at named
  next => cases named
  next held =>
    have some : name ≠ [] := by simpa using held
    have bare : IsElementType (String.ofList (lower name)) :=
      .of_absent (lower_ne_nil some) fun bracket => absent (bracket_of_mem_lower bracket)
    simp only at named
    split at named
    next =>
      split at named
      next => cases named; exact bare
      next => cases named; exact .parenthesized _
    next => cases named; exact bare

theorem serialType?_isElementType {field : Blocks.Field} {serial : String}
    (found : field.serialType? {} = some serial) : IsElementType serial := by
  unfold Blocks.Field.serialType? at found
  simp only at found
  split at found
  next =>
    obtain ⟨entry, member, rfl⟩ := Option.map_eq_some_iff.mp found
    have either := List.mem_of_find?_eq_some member
    simp only [List.mem_cons, List.not_mem_nil, or_false] at either
    rcases either with rfl | rfl
    · exact ⟨by decide, by decide⟩
    · exact ⟨by decide, by decide⟩
  next => cases found

theorem resolve_isElementType {name type : String}
    (found : TypeMap.prisma.resolve name = some type) : IsElementType type := by
  have all : ∀ entry ∈ TypeMap.prisma.entries,
      entry.2 ≠ "" ∧ ¬ ['[', ']'] <:+ entry.2.toList := by decide
  unfold TypeMap.resolve at found
  split at found
  next => cases found
  next =>
    obtain ⟨entry, member, rfl⟩ := Option.map_eq_some_iff.mp found
    obtain ⟨some, single⟩ := all entry (List.mem_of_find?_eq_some member)
    exact ⟨some, single⟩

theorem WellFormed.columnType_read (formed : field.WellFormed) (enums : List String) (line : Nat) :
    ∃ type, (field.read line).columnType {} TypeMap.prisma.provider enums = .ok type ∧
      IsElementType type := by
  unfold Blocks.Field.columnType
  split
  next native found => exact ⟨native, rfl, formed.nativeType?_read line found⟩
  next serial _ found => exact ⟨serial, rfl, serialType?_isElementType found⟩
  next =>
    split
    next failed => cases failed
    next type found => exact ⟨type, rfl, resolve_isElementType (Except.ok.inj found)⟩
    next =>
      split
      next => exact ⟨_, rfl, .parenthesized _⟩
      next =>
        refine ⟨_, rfl, .of_absent (lower_ne_nil formed.type.1) fun bracket => ?_⟩
        cases formed.type.2 _ (bracket_of_mem_lower bracket)

theorem WellFormed.column_read (formed : field.WellFormed) (enums : List String)
    (reference : Option ColumnReference) (line : Nat) :
    ∃ column, (field.read line).column {} TypeMap.prisma.provider enums [] reference = .ok column ∧
      field.DescribedBy column := by
  obtain ⟨type, typed, element⟩ := formed.columnType_read enums line
  have named : field.name ≠ "" := fun same => formed.name.1 (by simp [same])
  have whole : (if (field.read line).isArray = true then type ++ "[]" else type) ≠ "" := by
    split
    next => simp
    next => exact element.some
  refine ⟨_, Blocks.Field.column_of_type typed named whole reference, ?_⟩
  constructor
  case name => rfl
  case isNotNull => simp [read]
  case isPrimaryKey => simpa using hasAttribute_read field line "id"
  case isUnique => exact hasAttribute_read field line "unique"
  case isList =>
    by_cases list : field.suffix = .list
    · simp [read, list]
    · simpa [read, list] using element.single

end Field

end SchemaAtlas.Blocks.Written

namespace SchemaAtlas.Blocks

open Text

variable {R : Type} [Coordinate R]

/-- A schema that can be written is read as it was written, whatever numbers are drawn. -/
theorem written_schema_read_back {blocks : List Written.Block} (formed : Written.WellFormed blocks)
    (indent : Nat) (draws : Nat → R) :
    ∃ schema, (readSchema (Config.default : Config R) draws
        (Written.text indent blocks)).outcome = .ok schema ∧
      Written.DescribedBy blocks schema := by
  have each : Written.ReadsColumns (Written.models blocks) (fun _ => True)
      Written.Field.DescribedBy := by
    intro relationships _ enums model member field inside line
    have held := (formed.model member).fields field (List.mem_of_mem_filter inside)
    exact held.column_read enums _ line
  obtain ⟨schema, read, enums, tables⟩ := Written.readSchema_written formed indent draws
    (fun read _ model _ => (Model.relationships_returns {} read model).imp fun _ _ _ _ => trivial)
    each
  refine ⟨schema, read, enums, ?_⟩
  have described : List.Forall₂ (fun entry table =>
      Written.Model.DescribedBy (Written.models blocks) entry.1 table)
      (Written.models blocks).zipIdx schema.tables :=
    tables.imp fun entry table built => ⟨built.id, built.name, built.columns⟩
  simpa using List.forall₂_map_left_iff.mpr described

/-- A small schema with a relationship, and with brackets and slashes inside a string. -/
def blog : List Written.Block := [
  .enumeration { name := "Role", values := ["ADMIN", "USER"] },
  .model
    { name := "User"
      fields := [
        { name := "id", type := "Int"
          attributes := [{ name := "id" }, { name := "default", args := some "autoincrement()" }] },
        { name := "email", type := "String", suffix := .optional
          attributes := [{ name := "unique" }, { name := "db.VarChar", args := some "255" }] },
        { name := "role", type := "Role" },
        { name := "posts", type := "Post", suffix := .list }] },
  .model
    { name := "Post"
      fields := [
        { name := "id", type := "Int", attributes := [{ name := "id" }] },
        { name := "title", type := "String"
          attributes := [{ name := "default", args := some "\"a) // [b\"" }] },
        { name := "tags", type := "String", suffix := .list },
        { name := "author", type := "User"
          attributes := [
            { name := "relation", args := some "fields: [id], references: [id]" }] }] }]

theorem blog_wellFormed : Written.WellFormed blog := by
  have bare (name : String) (named : name ≠ "")
      (inside : ∀ c ∈ name.toList, Attribute.isNameChar c = true) :
      Written.Attribute.WellFormed { name } := ⟨named, inside, nofun⟩
  have called (name args : String) (named : name ≠ "")
      (inside : ∀ c ∈ name.toList, Attribute.isNameChar c = true)
      (isArguments : Written.IsArguments args.toList) :
      Written.Attribute.WellFormed { name, args := some args } := by
    refine ⟨named, inside, ?_⟩
    rintro _ ⟨⟩
    exact isArguments
  have plain {cs : List Char} (nested : IsNested cs)
      (rest : '{' ∉ cs ∧ '}' ∉ cs ∧ Uncommented .code cs ∧ '\n' ∉ cs) : Written.IsArguments cs :=
    .of_braceless nested rest.1 rest.2.1 rest.2.2.1 rest.2.2.2
  have call : IsNested "autoincrement()".toList :=
    have name : IsNested "autoincrement".toList := .of_plain (by decide)
    name.append (@IsNested.group '(' ')' [] [] rfl .nil .nil)
  have string : IsNested "\"a) // [b\"".toList :=
    @IsNested.string '"' "a) // [b".toList [] rfl (.of_plain (by decide) (by decide)) .nil
  have lists : IsNested "fields: [id], references: [id]".toList :=
    have fields : IsNested "fields: ".toList := .of_plain (by decide)
    have references : IsNested ", references: ".toList := .of_plain (by decide)
    have key : IsNested "id".toList := .of_plain (by decide)
    have last := references.append (@IsNested.group '[' ']' _ [] rfl key .nil)
    fields.append (@IsNested.group '[' ']' _ _ rfl key last)
  have id := bare "id" (by decide) (by decide)
  have unique := bare "unique" (by decide) (by decide)
  have counter := called "default" _ (by decide) (by decide) (plain call (by decide))
  have width := called "db.VarChar" "255" (by decide) (by decide)
    (plain (.of_plain (by decide)) (by decide))
  have title := called "default" _ (by decide) (by decide) (plain string (by decide))
  have relation := called "relation" _ (by decide) (by decide) (plain lists (by decide))
  refine ⟨by decide, ?_, by decide⟩
  simp only [blog, List.forall_mem_cons]
  refine ⟨⟨by decide, by decide⟩, ⟨by decide, ?_⟩, ⟨by decide, ?_⟩, by simp⟩
  · simp only [List.forall_mem_cons]
    refine ⟨⟨by decide, by decide, by simp [id, counter]⟩,
      ⟨by decide, by decide, by simp [unique, width]⟩, ⟨by decide, by decide, by simp⟩,
      ⟨by decide, by decide, by simp⟩, by simp⟩
  · simp only [List.forall_mem_cons]
    refine ⟨⟨by decide, by decide, by simp [id]⟩, ⟨by decide, by decide, by simp [title]⟩,
      ⟨by decide, by decide, by simp⟩, ⟨by decide, by decide, by simp [relation]⟩, by simp⟩

theorem written_schema_read_back_blog :
    Written.WellFormed blog ∧
      ∃ schema, (readSchema (Config.default : Config Int) (fun _ => 0)
          (Written.text 2 blog)).outcome = .ok schema ∧
        Written.DescribedBy blog schema :=
  ⟨blog_wellFormed, written_schema_read_back blog_wellFormed 2 fun _ => 0⟩

end SchemaAtlas.Blocks
