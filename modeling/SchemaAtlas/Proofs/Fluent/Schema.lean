import SchemaAtlas.Proofs.Fluent.Table
import SchemaAtlas.Proofs.Schema

/-!
Schemas written as a script: what a reading that succeeds returns, and what the three modes for
unknown tables have in common.
-/

set_option autoImplicit false

namespace SchemaAtlas.Fluent

open Script

theorem pairFields_isNamed {source target : String} {fields columns : List Expr}
    {relationship : Relationship}
    (member : relationship ∈ pairFields source target fields columns) : relationship.IsNamed := by
  unfold pairFields at member
  split at member
  next => simp at member
  next =>
    obtain ⟨pair, -, linked⟩ := List.mem_filterMap.mp member
    split at linked
    next => cases linked; exact Relationship.link_isNamed _ _ _ _
    next => cases linked

theorem relationships_isNamed {keywords : DrizzleKeywords} {value : Option Expr}
    {relationship : Relationship} (member : relationship ∈ relationships keywords value) :
    relationship.IsNamed := by
  unfold relationships at member
  split at member
  next helper source _ entries _ =>
    split at member
    next =>
      obtain ⟨entry, -, entered⟩ := List.mem_flatMap.mp member
      split at entered
      next =>
        unfold relationshipsOf at entered
        split at entered
        next =>
          split at entered
          next =>
            split at entered
            next => exact pairFields_isNamed entered
            next => simp at entered
          next => simp at entered
        next => simp at entered
      next => simp at entered
    next => simp at member
  next => simp at member

theorem declared_isNamed {keywords : DrizzleKeywords} {script : Module}
    {relationship : Relationship} (member : relationship ∈ declared keywords script) :
    relationship.IsNamed := by
  obtain ⟨_, -, found⟩ := List.mem_flatMap.mp member
  exact relationships_isNamed found

variable {R : Type} [Coordinate R]

theorem collect_keeps (config : Config R) (draws : Nat → R) (surroundings : Surroundings)
    (script : Module) :
    (collect config draws surroundings script).Keeps (·.reportsDrop = false) Fault.Speaks
      Registry.Distinct := by
  have tables := Journaled.Keeps.foldlM script.exported
    (fun state declaration _ distinct =>
      addTable_keeps config draws surroundings distinct declaration)
    ({}, 0) Registry.distinct_empty
  refine tables.bind fun (registry, _) distinct => ?_
  exact .foldlM script.declarations
    (fun _ declaration _ kept => addIndex_keeps config.drizzleKeywords kept declaration)
    registry distinct

theorem collect_congr {config config' : Config R}
    (keywords : config.drizzleKeywords = config'.drizzleKeywords)
    (types : config.drizzleTypes = config'.drizzleTypes)
    (layout : config.layout = config'.layout) : collect config = collect config' := by
  funext draws surroundings script
  simp only [collect, addTable_congr keywords types layout, keywords]

theorem schemaOf_keeps (config : Config R) (draws : Nat → R) (script : Module) :
    (schemaOf config draws script).Keeps
      (·.Allowed config.onUnresolved) Fault.Speaks
      (fun schema => schema.isEmpty = false ∧
        schema.Settled config.onUnresolved config.deduplicateRelationships
          (declared config.drizzleKeywords script ++ Relationship.ofReferences schema.tables)) := by
  unfold schemaOf
  refine ((collect_keeps _ _ _ _).allowed _).bind fun registry distinct => ?_
  simp only
  split
  next => exact .fail (Fault.emptySchema_speaks _ _ (by simp))
  next held =>
    refine .bind (Relationship.settle_keeps _ _ _ _) fun settled ⟨same, strict⟩ => .pure ⟨?_, ?_⟩
    · simpa [Schema.isEmpty] using held
    · refine Registry.settled distinct (fun relationship member => ?_) same strict _
      rcases List.mem_append.mp member with found | referenced
      · exact declared_isNamed found
      · exact Relationship.isNamed_of_mem_ofReferences referenced

theorem ofText?_speaks (text : List Char) : FailsOnly Fault.Speaks (Module.ofText? text) := by
  unfold Module.ofText?
  split
  next => exact .ok _
  next => exact .error fun _ => by simp [Module.malformed, Fault.message, Place.locate]

theorem readSchema_keeps (config : Config R) (draws : Nat → R) (text : List Char) :
    (readSchema config draws text).Keeps
      (·.Allowed config.onUnresolved) Fault.Speaks
      (fun schema => schema.isEmpty = false ∧ ∃ script,
        schema.Settled config.onUnresolved config.deduplicateRelationships
          (declared config.drizzleKeywords script ++ Relationship.ofReferences schema.tables)) := by
  refine .bind (.ofExcept (ofText?_speaks text) fun _ _ => trivial) fun script _ => ?_
  exact (schemaOf_keeps config draws script).imp fun _ ⟨held, settled⟩ => ⟨held, script, settled⟩

theorem readSchema_ignore (config : Config R) (draws : Nat → R) (text : List Char) :
    readSchema { config with onUnresolved := .ignore } draws text =
      (readSchema { config with onUnresolved := .warn } draws text).without
        Warning.reportsDrop := by
  refine Journaled.bind_eq_without (Journaled.without_eq_self (by simp)).symm fun script => ?_
  unfold schemaOf
  refine Journaled.bind_eq_without ?_ fun registry => ?_
  · -- The tables are collected before the mode is looked at.
    have same : collect { config with onUnresolved := .ignore } =
        collect { config with onUnresolved := .warn } := collect_congr rfl rfl rfl
    rw [same]
    exact (collect_keeps _ _ _ _).without_eq_self.symm
  · simp only
    split
    next => rfl
    next => exact Journaled.bind_eq_without (Relationship.settle_ignore _ _ _) fun _ => rfl

theorem readSchema_once (config : Config R) (draws : Nat → R) (text : List Char) :
    readSchema { config with deduplicateRelationships := true } draws text =
      Schema.mergeLinks <$>
        readSchema { config with deduplicateRelationships := false } draws text := by
  have same : collect { config with deduplicateRelationships := true } =
      collect { config with deduplicateRelationships := false } := collect_congr rfl rfl rfl
  simp only [readSchema, schemaOf, same, map_bind, Relationship.settle_once, bind_map_left]
  congr 1
  funext script
  congr 1
  funext registry
  split
  next => rfl
  next => simp [Schema.mergeLinks]

theorem readSchema_fail_or (config : Config R) (draws : Nat → R) (text : List Char) :
    Journaled.FailsOr (·.isUnresolvedReference = true)
      (readSchema { config with onUnresolved := .fail } draws text)
      (readSchema { config with onUnresolved := .warn } draws text) := by
  refine .bind (.refl _) fun script => ?_
  have same : collect { config with onUnresolved := .fail } =
      collect { config with onUnresolved := .warn } := collect_congr rfl rfl rfl
  simp only [schemaOf, same]
  refine .bind (.refl _) fun registry => ?_
  split
  next => exact .refl _
  next => exact (Relationship.settle_fail_or _ _ _ _).bind fun _ => .refl _

end SchemaAtlas.Fluent
