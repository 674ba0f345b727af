import Mathlib.Data.List.Forall2
import Mathlib.Tactic.MkIffOfInductiveProp
import SchemaAtlas.Extraction.Result
import SchemaAtlas.Schema.Document

/-!
The document of a result tells everything about it. Documents are compared as their readers compare
them: the members of an object in any order, and numbers by a relation of the caller's.
-/

set_option autoImplicit false

namespace SchemaAtlas

variable {R : Type} {same : R → R → Prop}

namespace Json

inductive Same (same : R → R → Prop) : Json R → Json R → Prop
  | null : Same same .null .null
  | bool (value : Bool) : Same same (.bool value) (.bool value)
  | integer (value : Int) : Same same (.integer value) (.integer value)
  | number {x y : R} (numbers : same x y) : Same same (.number x) (.number y)
  | string (text : String) : Same same (.string text) (.string text)
  | array {items others : List (Json R)} (each : List.Forall₂ (Same same) items others) :
      Same same (.array items) (.array others)
  | object {members others : List (String × Json R)}
      (each : ∀ key, Option.Rel (Same same) (members.lookup key) (others.lookup key)) :
      Same same (.object members) (.object others)

@[simp] theorem same_bool {a b : Bool} :
    Same same (.bool a) (.bool b) ↔ a = b :=
  ⟨fun | .bool _ => rfl, fun | rfl => .bool a⟩

@[simp] theorem same_number {x y : R} : Same same (.number x) (.number y) ↔ same x y :=
  ⟨fun | .number numbers => numbers, .number⟩

@[simp] theorem same_string {a b : String} : Same same (.string a) (.string b) ↔ a = b :=
  ⟨fun | .string _ => rfl, fun | rfl => .string a⟩

@[simp] theorem same_ofText? {a b : Option String} :
    Same same (ofText? a) (ofText? b) ↔ a = b := by
  cases a <;> cases b
  case none.none => simp [ofText?, Same.null]
  case some.some => simp [ofText?]
  all_goals
    simp only [ofText?, reduceCtorEq, iff_false]
    nofun

theorem same_array_map {A : Type} {document : A → Json R} {items others : List A} :
    Same same (.array (items.map document)) (.array (others.map document)) ↔
      List.Forall₂ (fun item other => Same same (document item) (document other)) items others := by
  rw [← List.forall₂_map_right_iff, ← List.forall₂_map_left_iff]
  exact ⟨fun | .array each => each, .array⟩

theorem same_array_eq {A : Type} {document : A → Json R}
    (told : ∀ item other, Same same (document item) (document other) ↔ item = other)
    {items others : List A} :
    Same same (.array (items.map document)) (.array (others.map document)) ↔ items = others := by
  simp only [same_array_map, told, List.forall₂_eq_eq_eq]

@[simp] theorem same_nothing : Same same (.object []) (.object []) :=
  .object fun _ => .none

/-- The member of a key that an object may leave out. -/
def optional (key : String) (value : Option (Json R)) : List (String × Json R) :=
  (value.map (key, ·)).toList

theorem lookup_optional (key sought : String) (value : Option (Json R)) :
    (optional key value).lookup sought = if sought = key then value else none := by
  cases value with
  | none => simp [optional]
  | some value =>
    by_cases hit : sought = key
    · simp [optional, hit]
    · simp [optional, List.lookup_cons, beq_eq_false_iff_ne.mpr hit, hit]

@[simp] theorem mem_optional {key sought : String} {value : Option (Json R)} {document : Json R} :
    (sought, document) ∈ optional key value ↔ sought = key ∧ value = some document := by
  cases value <;> simp [optional, eq_comm]

theorem same_option_map {A : Type} {document : A → Json R}
    (told : ∀ item other, Same same (document item) (document other) ↔ item = other)
    {item other : Option A} :
    Option.Rel (Same same) (item.map document) (other.map document) ↔ item = other := by
  cases item <;> cases other <;> simp [told]

theorem lookup_eq_none {key : String} {members : List (String × Json R)}
    (fresh : key ∉ members.map Prod.fst) : members.lookup key = none := by
  refine List.lookup_eq_none_iff.mpr fun member listed => bne_iff_ne.mpr fun hit => fresh ?_
  exact hit ▸ List.mem_map_of_mem listed

/-- A key of an object that is written in front of the others and may be left out. -/
theorem same_object_optional {key : String} {value other : Option (Json R)}
    {members others : List (String × Json R)} (fresh : key ∉ members.map Prod.fst)
    (fresh' : key ∉ others.map Prod.fst) :
    Same same (.object (optional key value ++ members)) (.object (optional key other ++ others)) ↔
      Option.Rel (Same same) value other ∧ Same same (.object members) (.object others) := by
  have absent := lookup_eq_none fresh
  have absent' := lookup_eq_none fresh'
  constructor
  · rintro (_ | _ | _ | _ | _ | _ | ⟨each⟩)
    refine ⟨by simpa [List.lookup_append, lookup_optional, absent, absent'] using each key,
      .object fun sought => ?_⟩
    by_cases hit : sought = key
    · rw [hit, absent, absent']
      exact .none
    · simpa [List.lookup_append, lookup_optional, hit] using each sought
  · rintro ⟨values, _ | _ | _ | _ | _ | _ | ⟨each⟩⟩
    refine .object fun sought => ?_
    simp only [List.lookup_append, lookup_optional]
    by_cases hit : sought = key
    · simpa [hit, absent, absent'] using values
    · simpa [hit] using each sought

theorem same_object_cons {key : String} {value other : Json R}
    {members others : List (String × Json R)} (fresh : key ∉ members.map Prod.fst)
    (fresh' : key ∉ others.map Prod.fst) :
    Same same (.object ((key, value) :: members)) (.object ((key, other) :: others)) ↔
      Same same value other ∧ Same same (.object members) (.object others) := by
  have optionally : Same same (.object (optional key (some value) ++ members))
      (.object (optional key (some other) ++ others)) ↔ _ := same_object_optional fresh fresh'
  simpa [optional] using optionally

end Json

open Json

theorem ColumnReference.same_toJson {first second : ColumnReference} :
    first.toJson.Same same second.toJson ↔ first = second := by
  cases first
  cases second
  simp [ColumnReference.toJson, same_object_cons]

theorem Column.toJson_eq (column : Column) :
    column.toJson =
      (.object
        ([("name", .string column.name), ("type", .string column.type),
            ("isPrimaryKey", .bool column.isPrimaryKey), ("isUnique", .bool column.isUnique),
            ("isNotNull", .bool column.isNotNull)] ++
          (optional "references" (column.references.map ColumnReference.toJson) ++
            (optional "defaultValue" (column.defaultValue.map .string) ++ []))) : Json R) := by
  unfold Column.toJson
  cases column.references <;> cases column.defaultValue <;> rfl

theorem Column.same_toJson {first second : Column} :
    first.toJson.Same same second.toJson ↔ first = second := by
  cases first
  cases second
  simp [Column.toJson_eq, same_object_cons, same_object_optional,
    same_option_map fun _ _ => ColumnReference.same_toJson, same_option_map fun _ _ => same_string,
    -List.append_nil]

theorem Index.same_toJson {first second : Index} :
    first.toJson.Same same second.toJson ↔ first = second := by
  cases first
  cases second
  simp [Index.toJson, same_object_cons, same_array_eq fun _ _ => same_string]

theorem Relationship.same_toJson {first second : Relationship} :
    first.toJson.Same same second.toJson ↔ first = second := by
  cases first
  cases second
  simp [Relationship.toJson, same_object_cons]

theorem Enumeration.same_toJson {first second : Enumeration} :
    first.toJson.Same same second.toJson ↔ first = second := by
  cases first
  cases second
  simp [Enumeration.toJson, same_object_cons, same_array_eq fun _ _ => same_string]

@[mk_iff same_iff]
structure Position.Same (same : R → R → Prop) (first second : Position R) : Prop where
  x : same first.x second.x
  y : same first.y second.y

theorem Position.same_eq {first second : Position R} : first.Same Eq second ↔ first = second := by
  rw [Position.same_iff, Position.mk.injEq]

theorem Position.same_toJson {first second : Position R} :
    first.toJson.Same same second.toJson ↔ first.Same same second := by
  simp [Position.toJson, same_object_cons, Position.same_iff]

@[mk_iff same_iff]
structure Table.Same (same : R → R → Prop) (first second : Table R) : Prop where
  id : first.id = second.id
  name : first.name = second.name
  columns : first.columns = second.columns
  indexes : first.indexes = second.indexes
  position : first.position.Same same second.position

theorem Table.same_eq {first second : Table R} : first.Same Eq second ↔ first = second := by
  rw [Table.same_iff, Position.same_eq, Table.mk.injEq]

theorem Table.same_toJson {first second : Table R} :
    first.toJson.Same same second.toJson ↔ first.Same same second := by
  simp [Table.toJson, same_object_cons, same_array_eq fun _ _ => Column.same_toJson,
    same_array_eq fun _ _ => Index.same_toJson, Position.same_toJson, Table.same_iff]

@[mk_iff same_iff]
structure Schema.Same (same : R → R → Prop) (first second : Schema R) : Prop where
  tables : List.Forall₂ (Table.Same same) first.tables second.tables
  relationships : first.relationships = second.relationships
  enums : first.enums = second.enums

theorem Schema.same_eq {first second : Schema R} : first.Same Eq second ↔ first = second := by
  have tables : Table.Same (R := R) Eq = Eq := by
    funext first second
    exact propext Table.same_eq
  rw [Schema.same_iff, tables, List.forall₂_eq_eq_eq, Schema.mk.injEq]

theorem Schema.same_toJson {first second : Schema R} :
    first.toJson.Same same second.toJson ↔ first.Same same second := by
  simp [Schema.toJson, same_object_cons, same_array_map, Table.same_toJson,
    same_array_eq fun _ _ => Relationship.same_toJson,
    same_array_eq fun _ _ => Enumeration.same_toJson, Schema.same_iff]

theorem Dialect.label_inj {first second : Dialect} :
    first.label = second.label ↔ first = second := by
  cases first <;> cases second <;> decide

theorem Tier.label_inj {first second : Tier} : first.label = second.label ↔ first = second := by
  cases first <;> cases second <;> decide

theorem Tier.labels_inj {first second : Option Tier} :
    first.map Tier.label = second.map Tier.label ↔ first = second := by
  cases first <;> cases second <;> simp [Tier.label_inj]

theorem Severity.label_inj {first second : Severity} :
    first.label = second.label ↔ first = second := by
  cases first <;> cases second <;> decide

/-- A success with a schema that reads the same, or a failure with the same message. -/
inductive Outcome.Same (same : R → R → Prop) : Outcome R → Outcome R → Prop
  | success {first second : Schema R} (schemas : first.Same same second) :
      Same same (.success first) (.success second)
  | failure (error : String) (stated : error ≠ "") :
      Same same (.failure error stated) (.failure error stated)

theorem Outcome.not_same_success_failure {schema : Schema R} {error : String}
    {stated : error ≠ ""} : ¬ Same same (.success schema) (.failure error stated) := nofun

theorem Outcome.not_same_failure_success {schema : Schema R} {error : String}
    {stated : error ≠ ""} : ¬ Same same (.failure error stated) (.success schema) := nofun

theorem Outcome.same_success {first second : Schema R} :
    Same same (.success first) (.success second) ↔ first.Same same second :=
  ⟨fun | .success schemas => schemas, .success⟩

theorem Outcome.same_failure {error other : String} {stated : error ≠ ""} {stated' : other ≠ ""} :
    Same same (.failure error stated) (.failure other stated') ↔ error = other := by
  constructor
  · rintro ⟨⟩
    rfl
  · rintro rfl
    exact .failure error stated

theorem Outcome.same_eq {first second : Outcome R} : first.Same Eq second ↔ first = second := by
  cases first <;> cases second <;>
    simp [same_success, same_failure, not_same_success_failure, not_same_failure_success,
      Schema.same_eq]

namespace ExtractionResult

@[mk_iff same_iff]
structure Same (same : R → R → Prop) (first second : ExtractionResult R) : Prop where
  outcome : first.outcome.Same same second.outcome
  dialect : first.dialect = second.dialect
  tier : first.tier = second.tier
  warnings : first.warnings = second.warnings

theorem same_toJson {first second : ExtractionResult R} :
    first.toJson.Same same second.toJson ↔ first.Same same second := by
  have warned : ∀ warning other : Warning,
      Json.Same same
          (.object [("level", .string warning.severity.label), ("message", .string warning.message),
            ("context", .ofText? warning.context)])
          (.object [("level", .string other.severity.label), ("message", .string other.message),
            ("context", .ofText? other.context)]) ↔ warning = other := by
    rintro ⟨severity, message, context⟩ ⟨severity', message', context'⟩
    simp [same_object_cons, Severity.label_inj]
  obtain ⟨outcome, dialect, tier, warnings⟩ := first
  obtain ⟨outcome', dialect', tier', warnings'⟩ := second
  cases outcome <;> cases outcome' <;>
    simp [toJson, members, isSuccess, schema?, error?, same_object_cons, same_array_eq warned,
      Dialect.label_inj, Tier.labels_inj, same_iff, Outcome.same_success, Outcome.same_failure,
      Outcome.not_same_success_failure, Outcome.not_same_failure_success, Schema.same_toJson,
      Json.Same.null]

theorem same_eq {first second : ExtractionResult R} : first.Same Eq second ↔ first = second := by
  rw [same_iff, Outcome.same_eq, ExtractionResult.mk.injEq]

/-- Two results with documents that read the same are the same, in numbers as far as these are
compared. -/
theorem toJson_lossless (first second : ExtractionResult R) :
    (∀ same : R → R → Prop, first.toJson.Same same second.toJson ↔ first.Same same second) ∧
      (first.toJson = second.toJson ↔ first = second) := by
  refine ⟨fun same => same_toJson, fun alike => ?_, congrArg toJson⟩
  have refl : first.toJson.Same Eq first.toJson := same_toJson.mpr (same_eq.mpr rfl)
  exact same_eq.mp (same_toJson.mp (alike ▸ refl))

end ExtractionResult

end SchemaAtlas
