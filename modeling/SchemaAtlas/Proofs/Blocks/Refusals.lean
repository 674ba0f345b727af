import SchemaAtlas.Proofs.Blocks.Order
import SchemaAtlas.Proofs.Refusals

/-!
Blocks are read with the default types: which fields are refused, and that nothing else goes wrong
besides what is announced.
-/

set_option autoImplicit false

namespace SchemaAtlas.Blocks

open Text

/-- What a reading of blocks is said to end with if it makes no schema. -/
def announces : Fault → Bool
  | .dialectMismatch .. | .structural .. | .emptySchema .. | .unresolvedReference .. => true
  | _ => false

/-- A field whose type text names no type and makes no list, and that has no native type. -/
def Field.IsBlank (field : Field) : Prop :=
  field.type = "" ∧ field.isArray = false ∧ field.nativeType? {} = none

/-- A text that is read up to its tables, one of which has a blank column. -/
def HasBlankColumn (text : List Char) : Prop :=
  looksLike {} (stripComments text) = true ∧ bracesBalanced (stripComments text) = true ∧
    ∃ models enums, (collect {} (stripComments text)).outcome = .ok (models, enums) ∧
      ∃ model ∈ models, ∃ field ∈ model.fields, field.IsBlank

theorem name_ne_empty_of_mem_blocks {keyword : String} {cs : List Char} {block : Block}
    (member : block ∈ (blocks keyword cs).blocks) : block.name ≠ "" := by
  have named (name behind : List Char) (before : Option Char) (cs : List Char)
      (header : blockHeader? keyword.toList before cs = some (name, behind)) :
      String.ofList name ≠ "" := by
    obtain ⟨_, _, -, -, word, -, -⟩ := parts_of_blockHeader? header
    exact fun empty => word.1 (by simpa using empty)
  unfold blocks at member
  generalize 0 = skip, 1 = line, (none : Option Char) = before at member
  fun_induction blocksFrom keyword.toList skip line before cs with
  | case1 => simp at member
  | case2 _ _ _ _ _ _ ih => exact ih member
  | case3 _ _ _ _ _ _ ih => exact ih member
  | case4 => simp at member
  | case5 line before c cs next name behind header _ body rest closed scan ih =>
    rcases List.mem_cons.mp member with rfl | later
    · exact named name behind before (c :: cs) header
    · exact ih later

/-- A model with a name whose fields have names. -/
def Model.Named (model : Model) : Prop :=
  model.name ≠ "" ∧ ∀ field ∈ model.fields, field.name ≠ ""

theorem Model.named_of_ofLines? {name : String} (some : name ≠ "") {start line : Nat}
    {lines : List (List Char)} {model : Model}
    (read : ofLines? name start line lines = .ok model) : model.Named := by
  induction lines generalizing line model with
  | nil =>
    cases read
    exact ⟨some, by simp⟩
  | cons cs lines ih =>
    rw [ofLines?] at read
    obtain ⟨item, first, read⟩ := bind_eq_ok.mp read
    obtain ⟨rest, later, same⟩ := bind_eq_ok.mp read
    have named := ih later
    -- Only a field adds to the model, and it is named by a word of its line.
    cases item with
    | nothing => cases same; exact named
    | attributes => cases same; exact named
    | field field =>
      cases same
      obtain ⟨-, word, -⟩ := Field.of_ofLine? (Item.field_of_ofLine? first)
      have here : field.name ≠ "" := fun empty => word.1 (by simp [empty])
      refine ⟨named.1, fun other member => ?_⟩
      rcases List.mem_cons.mp member with rfl | member
      · exact here
      · exact named.2 other member

theorem named_of_collect {cs : List Char} {models : List Model} {enums : List Enumeration}
    (collected : (collect {} cs).outcome = .ok (models, enums)) :
    (∀ model ∈ models, model.Named) ∧ "" ∉ enums.map (·.name) := by
  obtain ⟨all, declared, read, rfl⟩ := collect_eq_ok.mp collected
  constructor
  next =>
    intro model member
    have present := Keyed.mem_of_mem_merge member
    obtain ⟨block, present, here⟩ := exists_of_mem_mapM (readBlocks_eq_ok.mp read).1 present
    exact Model.named_of_ofLines? (name_ne_empty_of_mem_blocks present) here
  next =>
    intro member
    obtain ⟨enumeration, present, empty⟩ := List.mem_map.mp member
    obtain ⟨block, inside, here⟩ := exists_of_mem_mapM (readBlocks_eq_ok.mp all).1 present
    cases here
    exact name_ne_empty_of_mem_blocks inside empty

theorem collect_stops (keywords : PrismaKeywords) (cs : List Char) :
    FailsOnly Stops (collect keywords cs).outcome := by
  rw [collect_outcome]
  refine .bind (readBlocks_stops _ (fun _ => .ok _) _) fun enums => ?_
  exact .bind (readBlocks_stops _ Model.ofBlock?_stops _) fun declared => .ok _

namespace Field

theorem nativeType?_ne_empty {keywords : PrismaKeywords} {field : Field} {native : String}
    (found : field.nativeType? keywords = some native) : native ≠ "" := by
  obtain ⟨attr, -, here⟩ := List.exists_of_findSome?_eq_some found
  simp only [Option.bind_eq_bind, Option.bind_eq_some_iff] at here
  obtain ⟨name, -, here⟩ := here
  split at here
  next => cases here
  next some =>
    have lowered : String.ofList (lower name) ≠ "" := fun empty =>
      lower_ne_nil (by simpa using some) (by simpa using empty)
    split at here
    next =>
      split at here
      next => cases here; exact lowered
      next => cases here; simp
    next => cases here; exact lowered

theorem serialType?_default {field : Field} {type : String}
    (found : field.serialType? {} = some type) : field.type ≠ "" ∧ type ≠ "" := by
  unfold serialType? at found
  simp only at found
  split at found
  next =>
    obtain ⟨entry, member, rfl⟩ := Option.map_eq_some_iff.mp found
    have named : entry.1 = field.type := by simpa using List.find?_some member
    have listed : entry ∈ [("Int", "serial"), ("BigInt", "bigserial")] :=
      List.mem_of_find?_eq_some member
    rw [← named]
    rcases List.mem_pair.mp listed with rfl | rfl <;> decide
  next => cases found

theorem columnType_prisma {enums : List String} (unlisted : "" ∉ enums) (field : Field) :
    ∃ type, field.columnType {} TypeMap.prisma.provider enums = .ok type ∧
      (type = "" ↔ field.type = "" ∧ field.nativeType? {} = none) := by
  unfold columnType
  cases native : field.nativeType? {} with
  | some type => exact ⟨type, rfl, by simp [nativeType?_ne_empty native]⟩
  | none =>
    simp only [and_true]
    cases serial : field.serialType? {} with
    | some type =>
      obtain ⟨named, typed⟩ := serialType?_default serial
      exact ⟨type, rfl, iff_of_false typed named⟩
    | none =>
      simp only [TypeMap.provider]
      cases known : TypeMap.prisma.resolve field.type with
      | some type =>
        obtain ⟨named, typed⟩ := TypeMap.resolve_eq_some known
        exact ⟨type, rfl, iff_of_false typed named⟩
      | none =>
        simp only
        split
        next listed =>
          have named : field.type ≠ "" := fun empty => unlisted (empty ▸ listed)
          exact ⟨_, rfl, iff_of_false (by simp) named⟩
        next =>
          refine ⟨_, rfl, fun empty => ?_, fun empty => by rw [empty]; rfl⟩
          by_contra named
          have letters : field.type.toList ≠ [] := by simpa using named
          exact lower_ne_nil letters (by simpa using empty)

theorem column_refuses {enums : List String} (unlisted : "" ∉ enums) (compositeKey : List String)
    (reference : Option ColumnReference) {field : Field} (named : field.name ≠ "") :
    RefusesIf field.IsBlank
      (field.column {} TypeMap.prisma.provider enums compositeKey reference) := by
  obtain ⟨type, found, empty⟩ := columnType_prisma unlisted field
  unfold column
  rw [found]
  refine (RefusesIf.column _ _ _ _ _ _ _).congr ?_
  cases array : field.isArray <;> simp [IsBlank, named, array, empty]

end Field

theorem Model.columns_refuses {models enums : List String} (unnamed : "" ∉ models)
    (unlisted : "" ∉ enums) (relationships : List Relationship) {model : Model}
    (named : model.Named) :
    RefusesIf (∃ field ∈ model.fields, field.IsBlank)
      (model.columns {} TypeMap.prisma.provider models enums relationships) := by
  unfold Model.columns
  have each (field : Field) (member : field ∈ model.fields.filter (·.type ∉ models)) :=
    Field.column_refuses unlisted (model.marks {}).compositeKey
      (reference? relationships model.name field.name)
      (named.2 field (List.mem_filter.mp member).1)
  refine (RefusesIf.mapM each).congr (exists_congr fun field => ?_)
  -- A field of no type is not of the type of a model.
  rw [List.mem_filter, and_assoc]
  refine and_congr_right fun _ => and_iff_right_of_imp fun blank => ?_
  simpa [blank.1] using unnamed

variable {R : Type} [Coordinate R] {config : Config R}
  (types : config.prismaTypes = TypeMap.prisma.provider) (keywords : config.prismaKeywords = {})

include types keywords

theorem readTables_refuses (draws : Nat → R) {models enums : List String} (unnamed : "" ∉ models)
    (unlisted : "" ∉ enums) (relationships : List Relationship) (place : Nat) {rest : List Model}
    (named : ∀ model ∈ rest, model.Named) :
    RefusesIf (∃ model ∈ rest, ∃ field ∈ model.fields, field.IsBlank)
      (readTables config draws models enums relationships place rest).outcome := by
  induction rest generalizing place with
  | nil => exact (RefusesIf.ok []).congr (by simp)
  | cons model rest ih =>
    rw [List.forall_mem_cons] at named
    rw [List.exists_mem_cons_iff]
    have first : RefusesIf (∃ field ∈ model.fields, field.IsBlank)
        (readTable config draws models enums relationships place model).outcome := by
      unfold readTable
      rw [keywords, types]
      refine RefusesIf.before ?_ fun columns =>
        (Journaled.Returns.record _).bind fun _ _ => .pure trivial
      rw [Journaled.ofExcept_outcome]
      exact Model.columns_refuses unnamed unlisted relationships named.1
    unfold readTables
    exact first.journaled fun table => (ih (place + 1) named.2).before fun tables => .pure trivial

theorem schemaOf_ends (draws : Nat → R) {models : List Model} {enums : List Enumeration}
    (named : ∀ model ∈ models, model.Named) (unlisted : "" ∉ enums.map (·.name)) :
    EndsUnless (∃ model ∈ models, ∃ field ∈ model.fields, field.IsBlank) announces
      (schemaOf config draws models enums).outcome := by
  have unnamed : "" ∉ models.map (·.name) := by
    intro member
    obtain ⟨model, present, empty⟩ := List.mem_map.mp member
    exact (named model present).1 empty
  unfold schemaOf
  split
  next bare =>
    have none : models = [] := by simpa using (Bool.and_eq_true_iff.mp bare).1
    exact (EndsUnless.of_failsOnly (.error rfl)).congr (by simp [none])
  next =>
    -- Relationships of models join models, so there is nothing for the mode to decide.
    have related := Model.joins_of_mapM_relationships config.prismaKeywords models
    refine .of_refusesIf (.behind related fun found joins => ?_)
    rw [Relationship.settle_of_joins _ _ joins, pure_bind]
    exact (readTables_refuses types keywords draws unnamed unlisted _ 0 named).before
      fun tables => .pure trivial

theorem readSchema_ends (draws : Nat → R) (text : List Char) :
    EndsUnless (HasBlankColumn text) announces (readSchema config draws text).outcome := by
  unfold readSchema HasBlankColumn
  simp only [keywords]
  cases looksLike {} (stripComments text) with
  | false => exact (EndsUnless.of_failsOnly (.error rfl)).congr (by simp)
  | true =>
    cases bracesBalanced (stripComments text) with
    | false => exact (EndsUnless.of_failsOnly (.error rfl)).congr (by simp)
    | true =>
      simp only [Bool.not_true, Bool.false_eq_true, if_false, true_and]
      rw [Journaled.bind_outcome]
      have stops := collect_stops {} (stripComments text)
      cases collected : (collect {} (stripComments text)).outcome with
      | error fault =>
        obtain ⟨_, _, _, rfl⟩ := stops fault collected
        exact (EndsUnless.of_failsOnly (.error rfl)).congr (by simp)
      | ok found =>
        obtain ⟨models, enums⟩ := found
        obtain ⟨named, unlisted⟩ := named_of_collect collected
        exact (schemaOf_ends types keywords draws named unlisted).congr (by simp)

end SchemaAtlas.Blocks
