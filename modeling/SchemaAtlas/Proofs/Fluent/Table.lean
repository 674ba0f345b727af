import SchemaAtlas.Fluent.Schema
import SchemaAtlas.Proofs.Registry

/-!
The steps that read the tables and indexes of a script: what each says and how it fails.
-/

set_option autoImplicit false

namespace SchemaAtlas.Fluent

open Script

theorem columnType_speaks (types : TypeProvider) (chain : Chain) :
    FailsOnly Fault.Speaks (chain.columnType types) := by
  refine .bind (types.speaks chain.base) fun found => ?_
  split <;> exact .ok _

theorem column?_speaks (keywords : DrizzleKeywords) (types : TypeProvider) (builders : List String)
    (name : String) (value : Expr) :
    FailsOnly Fault.Speaks (column? keywords types builders name value) := by
  unfold column?
  split
  next chain _ =>
    refine .map _ (.bind (columnType_speaks types chain) fun type => ?_)
    exact .mapError Fault.refused_speaks
  next => exact .ok none

variable {R : Type}

theorem addIndex_keeps (keywords : DrizzleKeywords) {registry : Registry R}
    (distinct : registry.Distinct) (declaration : Declaration) :
    (addIndex keywords registry declaration).Keeps (·.reportsDrop = false) Fault.Speaks
      Registry.Distinct := by
  unfold addIndex
  split
  next => exact .pure distinct
  next =>
    refine .bind (.warn ?_) fun _ _ => .pure distinct
    simp [Warning.reportsDrop, Text.beginsWith, Text.dropLiteral?]
  next => exact (Registry.attach_keeps distinct _ _).bind fun _ kept => .pure kept

theorem readColumns_keeps (config : Config R) (table : String) (builders : List String)
    (entries : List (Entry Expr)) :
    (readColumns config table builders entries).Keeps (·.reportsDrop = false) Fault.Speaks
      (fun _ => True) := by
  fun_induction readColumns config table builders entries with
  | case1 => exact .pure trivial
  | case2 argument entries ih =>
    refine .bind (.warn ?_) fun _ _ => ih
    simp [Warning.reportsDrop, Text.beginsWith, Text.dropLiteral?]
  | case3 name value entries ih =>
    refine .bind (.ofExcept (column?_speaks _ _ _ _ _) fun _ _ => trivial) fun found _ => ?_
    cases found with
    | none =>
      refine .bind (.warn ?_) fun _ _ => ih
      simp [Warning.reportsDrop, Text.beginsWith, Text.dropLiteral?]
    | some column => exact ih.bind fun _ _ => .pure trivial

theorem readColumns_congr {config config' : Config R}
    (keywords : config.drizzleKeywords = config'.drizzleKeywords)
    (types : config.drizzleTypes = config'.drizzleTypes) :
    readColumns config = readColumns config' := by
  funext table builders entries
  induction entries with
  | nil => rfl
  | cons entry entries ih =>
    cases entry with
    | spread => simp only [readColumns, ih]
    | property => simp only [readColumns, ih, keywords, types]

variable [Coordinate R]

theorem addTable_congr {config config' : Config R}
    (keywords : config.drizzleKeywords = config'.drizzleKeywords)
    (types : config.drizzleTypes = config'.drizzleTypes)
    (layout : config.layout = config'.layout) : addTable config = addTable config' := by
  funext draws surroundings state declaration
  simp only [addTable, keywords, readColumns_congr keywords types, layout]

theorem addTable_keeps (config : Config R) (draws : Nat → R) (surroundings : Surroundings)
    {state : Registry R × Nat} (distinct : state.1.Distinct) (declaration : Declaration) :
    (addTable config draws surroundings state declaration).Keeps (·.reportsDrop = false)
      Fault.Speaks (·.1.Distinct) := by
  obtain ⟨registry, drawn⟩ := state
  unfold addTable
  simp only
  split
  next => exact .pure distinct
  next =>
    split
    next =>
      refine .bind (.warn ?_) fun _ _ => .pure distinct
      simp [Warning.reportsDrop, Text.beginsWith, Text.dropLiteral?]
    next =>
      refine (readColumns_keeps _ _ _ _).bind fun columns _ => ?_
      exact Registry.enter_keeps drawn (distinct.entered _)

end SchemaAtlas.Fluent
