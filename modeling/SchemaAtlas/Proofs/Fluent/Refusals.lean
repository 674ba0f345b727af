import SchemaAtlas.Proofs.Fluent.Parts
import SchemaAtlas.Proofs.Refusals

/-!
A script is read with the default types: which declarations of tables are refused, and that nothing
else goes wrong besides what is announced.
-/

set_option autoImplicit false

namespace SchemaAtlas.Fluent

open Script

/-- What a reading of a script is said to end with if it makes no schema. -/
def announces : Fault → Bool
  | .sourceSyntax .. | .emptySchema .. | .unresolvedReference .. => true
  | _ => false

/-- A chain of calls that makes a column without a name or without a type. -/
def Chain.IsBlank (name : String) (chain : Chain) : Prop :=
  name = "" ∨ (chain.base = "" ∧ chain.typeArguments = [])

def IsBlankEntry (builders : List String) : Entry Expr → Prop
  | .property name value => ∃ chain, Chain.ofExpr? builders value = some chain ∧ chain.IsBlank name
  | .spread _ => False

/-- A declaration of a table with a blank column, all groups written out. -/
def DeclaresBlank (surroundings : Surroundings) (declaration : Declaration) : Prop :=
  ∃ arguments name builders entries indexes,
    declaration.init.bind (tableArguments? {} surroundings.creators) = some arguments ∧
      tableParts {} declaration.name arguments = .ok (name, builders, entries, indexes) ∧
      ∃ entry ∈ surroundings.groups.flatten entries, IsBlankEntry builders entry

def HasBlankColumn (text : List Char) : Prop :=
  ∃ script, Module.ofText? text = .ok script ∧ ∃ declaration ∈ script.exported,
    DeclaresBlank (Surroundings.ofDeclarations {} script.declarations) declaration

theorem columnType_drizzle (chain : Chain) :
    ∃ type, chain.columnType TypeMap.drizzle.provider = .ok type ∧
      (type = "" ↔ chain.base = "" ∧ chain.typeArguments = []) := by
  have base : ((TypeMap.drizzle.resolve chain.base).filter (· ≠ "")).getD chain.base = "" ↔
      chain.base = "" := by
    cases found : (TypeMap.drizzle.resolve chain.base).filter (· ≠ "") with
    | none => simp
    | some type =>
      have typed : type ≠ "" := by simpa using (Option.filter_eq_some_iff.mp found).2
      have named : chain.base ≠ "" := by
        intro unnamed
        simp [TypeMap.resolve, unnamed] at found
      simp [typed, named]
  unfold Chain.columnType
  cases arguments : chain.typeArguments with
  | nil => exact ⟨_, rfl, by simpa using base⟩
  | cons first rest => exact ⟨_, rfl, by simp⟩

theorem column_refuses (name : String) (chain : Chain) :
    RefusesIf (chain.IsBlank name) (chain.column {} TypeMap.drizzle.provider name) := by
  obtain ⟨type, found, empty⟩ := columnType_drizzle chain
  unfold Chain.column
  rw [found]
  exact (RefusesIf.column name type _ _ _ _ _).congr (or_congr_right empty)

variable {R : Type}

section

variable {config : Config R} (types : config.drizzleTypes = TypeMap.drizzle.provider)
  (keywords : config.drizzleKeywords = {})

include types keywords

theorem readColumns_refuses (table : String) (builders : List String)
    (entries : List (Entry Expr)) :
    RefusesIf (∃ entry ∈ entries, IsBlankEntry builders entry)
      (readColumns config table builders entries).outcome := by
  induction entries with
  | nil => exact (RefusesIf.ok []).congr (by simp)
  | cons entry entries ih =>
    rw [List.exists_mem_cons_iff]
    cases entry with
    | spread argument =>
      unfold readColumns
      exact (RefusesIf.behind (.record _) fun _ _ => ih).congr (by simp [IsBlankEntry])
    | property name value =>
      unfold readColumns
      rw [keywords, types]
      have first : RefusesIf (IsBlankEntry builders (.property name value))
          (Journaled.ofExcept (column? {} TypeMap.drizzle.provider builders name value)).outcome := by
        rw [Journaled.ofExcept_outcome, column?]
        cases found : Chain.ofExpr? builders value with
        | none => exact (RefusesIf.ok none).congr (by simp [IsBlankEntry, found])
        | some chain =>
          exact ((column_refuses name chain).map some).congr (by simp [IsBlankEntry, found])
      refine first.journaled fun found => ?_
      cases found with
      | none => exact .behind (.record _) fun _ _ => ih
      | some column => exact ih.before fun columns => .pure trivial

variable [Coordinate R]

theorem addTable_refuses (draws : Nat → R) (surroundings : Surroundings)
    (state : Registry R × Nat) (declaration : Declaration) :
    RefusesIf (DeclaresBlank surroundings declaration)
      (addTable config draws surroundings state declaration).outcome := by
  obtain ⟨registry, drawn⟩ := state
  unfold addTable DeclaresBlank
  simp only [keywords]
  cases made : declaration.init.bind (tableArguments? {} surroundings.creators) with
  | none => exact (RefusesIf.ok _).congr (by simp)
  | some arguments =>
    simp only
    cases parts : tableParts {} declaration.name arguments with
    | error reason =>
      exact (RefusesIf.behind (.record _) fun _ _ => .ok _).congr (by simp [parts])
    | ok found =>
      obtain ⟨name, builders, entries, indexes⟩ := found
      have read := readColumns_refuses types keywords declaration.name builders
        (surroundings.groups.flatten entries)
      refine (read.before fun columns => ?_).congr (by simp [parts])
      exact (Journaled.Returns.record _).bind fun _ _ =>
        (Registry.register_returns registry _).bind fun _ _ => .pure trivial

theorem collect_refuses (draws : Nat → R) (surroundings : Surroundings) (script : Module) :
    RefusesIf (∃ declaration ∈ script.exported, DeclaresBlank surroundings declaration)
      (collect config draws surroundings script).outcome := by
  have tables := RefusesIf.foldlM
    (fun state declaration (_ : declaration ∈ script.exported) =>
      addTable_refuses types keywords draws surroundings state declaration) ({}, 0)
  exact tables.before fun found => ⟨_, addIndexes_outcome _ found.1 script.declarations, trivial⟩

theorem schemaOf_ends (draws : Nat → R) (script : Module) :
    EndsUnless
      (∃ declaration ∈ script.exported,
        DeclaresBlank (Surroundings.ofDeclarations {} script.declarations) declaration)
      announces (schemaOf config draws script).outcome := by
  unfold schemaOf
  simp only [keywords]
  rw [Journaled.bind_outcome]
  refine .before (collect_refuses types keywords draws _ script) fun registry => ?_
  split
  next => exact .error rfl
  next =>
    intro fault failed
    rcases Journaled.bind_outcome_error.mp failed with unresolved | ⟨_, _, none⟩
    · have foreign := Relationship.settle_fails _ _ _ _ fault unresolved
      cases fault with
      | unresolvedReference => rfl
      | _ => cases foreign
    · cases none

theorem readSchema_ends (draws : Nat → R) (text : List Char) :
    EndsUnless (HasBlankColumn text) announces (readSchema config draws text).outcome := by
  unfold readSchema HasBlankColumn
  rw [Journaled.bind_outcome, Journaled.ofExcept_outcome]
  cases read : Module.ofText? text with
  | error fault =>
    have malformed : fault = Module.malformed := by
      unfold Module.ofText? at read
      split at read
      next => cases read
      next => exact (Except.error.inj read).symm
    refine (EndsUnless.of_failsOnly (.error ?_)).congr (by simp)
    rw [malformed]
    rfl
  | ok script => exact (schemaOf_ends types keywords draws script).congr (by simp)

end

end SchemaAtlas.Fluent
