import SchemaAtlas.Blocks.Schema
import SchemaAtlas.Proofs.Links
import SchemaAtlas.Proofs.Registry
import SchemaAtlas.Proofs.Text.Runs

/-!
Models of a text: how reading them fails, that they have names of their own, and that what their
fields relate is named by its ends.
-/

set_option autoImplicit false

namespace SchemaAtlas.Blocks

open Text

/-- Something is not closed, which is all that reading a block fails with. -/
def Stops (fault : Fault) : Prop :=
  ∃ reason place, "Unterminated".toList <+: reason.toList ∧ fault = .structural reason place

theorem Stops.speaks {fault : Fault} (stops : Stops fault) : fault.Speaks := by
  obtain ⟨reason, place, said, rfl⟩ := stops
  exact Fault.structural_speaks reason place fun empty => by simp [empty] at said

namespace Attribute

theorem here?_stops {cs rest : List Char} {found : Except Fault Attribute}
    (matched : here? cs = some (found, rest)) : FailsOnly Stops found := by
  obtain ⟨⟨name, behind⟩, -, matched⟩ := Option.bind_eq_some_iff.mp matched
  simp only at matched
  -- Only parentheses that are opened and never closed are a fault.
  split at matched
  next =>
    split at matched
    next => cases matched; exact .ok _
    next => cases matched; exact .error ⟨_, _, by simp [String.toList_append], rfl⟩
  next => cases matched; exact .ok _

theorem listOf?_stops (cs : List Char) : FailsOnly Stops (listOf? cs) := by
  refine .mapM _ fun found member => ?_
  obtain ⟨_, _, _, matched⟩ := exists_of_mem_allMatches member
  exact here?_stops matched

end Attribute

theorem Field.ofLine?_stops (line : Nat) (cs : List Char) :
    FailsOnly Stops (ofLine? line cs) := by
  unfold ofLine?
  split
  next => exact .ok none
  next => exact .bind (Attribute.listOf?_stops _) fun _ => .ok _

theorem Field.of_ofLine? {line : Nat} {cs : List Char} {field : Field}
    (read : ofLine? line cs = .ok (some field)) :
    field.line = line ∧ IsWordText field.name.toList ∧ field.name.toList <+: cs := by
  unfold ofLine? at read
  split at read
  next => cases read
  next name type rest parts =>
    obtain ⟨attributes, -, same⟩ := bind_eq_ok.mp read
    cases same
    simp only [parts?, Option.bind_eq_bind, Option.bind_eq_some_iff] at parts
    obtain ⟨⟨word, behind⟩, taken, _, _, _, _, same⟩ := parts
    cases same
    obtain ⟨split, inside⟩ := eq_append_of_takeRun? taken
    rw [String.toList_ofList]
    exact ⟨rfl, ⟨ne_nil_of_takeRun? taken, inside⟩, ⟨behind, split.symm⟩⟩

namespace Model

theorem Item.ofLine?_stops (line : Nat) (cs : List Char) :
    FailsOnly Stops (ofLine? line cs) := by
  unfold ofLine?
  simp only
  split
  next => exact .ok _
  next =>
    split
    next => exact .map _ (Attribute.listOf?_stops _)
    next =>
      refine .bind (Field.ofLine?_stops _ _) fun declared => ?_
      cases declared with
      | none => exact .ok _
      | some field => exact .ok _

theorem Item.field_of_ofLine? {line : Nat} {cs : List Char} {field : Field}
    (read : ofLine? line cs = .ok (.field field)) :
    Field.ofLine? line (trim cs) = .ok (some field) := by
  unfold ofLine? at read
  simp only at read
  split at read
  next => cases read
  next =>
    split at read
    next =>
      obtain ⟨_, -, same⟩ := map_eq_ok.mp read
      cases same
    next =>
      obtain ⟨declared, found, same⟩ := bind_eq_ok.mp read
      cases declared with
      | none => cases same
      | some declared =>
        cases same
        exact found

theorem ofLines?_name {name : String} {start line : Nat} {lines : List (List Char)}
    {model : Model} (read : ofLines? name start line lines = .ok model) : model.name = name := by
  induction lines generalizing line model with
  | nil =>
    cases read
    rfl
  | cons cs lines ih =>
    rw [ofLines?] at read
    obtain ⟨item, -, read⟩ := bind_eq_ok.mp read
    obtain ⟨later, behind, same⟩ := bind_eq_ok.mp read
    cases same
    rw [← ih behind]
    cases item <;> rfl

theorem ofLines?_stops (name : String) (start line : Nat) (lines : List (List Char)) :
    FailsOnly Stops (ofLines? name start line lines) := by
  induction lines generalizing line with
  | nil => exact .ok _
  | cons cs rest ih =>
    refine .bind (Item.ofLine?_stops line cs) fun item => ?_
    exact .bind (ih (line + 1)) fun _ => .ok _

theorem ofBlock?_stops (block : Block) : FailsOnly Stops (ofBlock? block) :=
  ofLines?_stops _ _ _ _

end Model

theorem readBlocks_stops {α : Type} (keyword : String) {read : Block → Except Fault α}
    (each : ∀ block, FailsOnly Stops (read block)) (cs : List Char) :
    FailsOnly Stops (readBlocks keyword read cs) := by
  refine .bind (.mapM _ fun block _ => each block) fun found => ?_
  split
  next => exact .error ⟨_, _, by simp [String.toList_append], rfl⟩
  next => exact .ok found

def Distinct (models : List Model) : Prop := (models.map (·.name)).Nodup

theorem addModel_outcome (models : List Model) (model : Model) :
    (addModel models model).outcome = .ok (Keyed.put (·.name) models model) := by
  induction models with
  | nil => rfl
  | cons other models ih =>
    unfold addModel Keyed.put
    split
    next => rfl
    next =>
      rw [Journaled.bind_outcome, ih]
      rfl

theorem foldlM_addModel_outcome (declared models : List Model) :
    (declared.foldlM addModel models).outcome =
      .ok (declared.foldl (Keyed.put (·.name)) models) := by
  induction declared generalizing models with
  | nil => rfl
  | cons model declared ih =>
    rw [List.foldlM_cons, Journaled.bind_outcome, addModel_outcome]
    exact ih _

theorem addModel_keeps {models : List Model} (distinct : Distinct models) (model : Model) :
    (addModel models model).Keeps (·.reportsDrop = false) Fault.Speaks Distinct := by
  have reported (models : List Model) :
      (addModel models model).Keeps (·.reportsDrop = false) Fault.Speaks fun _ => True := by
    induction models with
    | nil => exact .pure trivial
    | cons other models ih =>
      unfold addModel
      split
      next => exact (Journaled.reportRedeclaration_keeps model.name).bind fun _ _ => .pure trivial
      next => exact ih.bind fun _ _ => .pure trivial
  refine ⟨(reported models).warnings, (reported models).fault, fun found added => ?_⟩
  rw [addModel_outcome] at added
  cases added
  exact Keyed.nodup_keys_put model distinct

theorem noteMissingBlock_outcome (cs : List Char) (keyword : String) :
    (noteMissingBlock cs keyword).outcome = .ok () := by
  unfold noteMissingBlock
  split <;> rfl

/-- All that is noted on the way does not count: the enumerations are read, then the models, and of
the models of one name the last one is kept. -/
theorem collect_outcome (keywords : PrismaKeywords) (cs : List Char) :
    (collect keywords cs).outcome = do
      let enums ← readBlocks keywords.enumKeyword
        (fun block => .ok { name := block.name, values := enumValues block.body }) cs
      let declared ← readBlocks keywords.modelKeyword Model.ofBlock? cs
      return (Keyed.merge (·.name) declared, enums) := by
  simp only [collect, Journaled.bind_outcome, noteMissingBlock_outcome, Journaled.ofExcept_outcome,
    foldlM_addModel_outcome]
  rfl

theorem collect_eq_ok {keywords : PrismaKeywords} {cs : List Char} {models : List Model}
    {enums : List Enumeration} : (collect keywords cs).outcome = .ok (models, enums) ↔
      readBlocks keywords.enumKeyword
          (fun block => .ok { name := block.name, values := enumValues block.body }) cs =
        .ok enums ∧
      ∃ declared, readBlocks keywords.modelKeyword Model.ofBlock? cs = .ok declared ∧
        models = Keyed.merge (·.name) declared := by
  simp only [collect_outcome, bind_eq_ok]
  constructor
  next =>
    rintro ⟨listed, read, declared, read', same⟩
    cases same
    exact ⟨read, declared, read', rfl⟩
  next =>
    rintro ⟨read, declared, read', rfl⟩
    exact ⟨enums, read, declared, read', rfl⟩

theorem noteMissingBlock_keeps (cs : List Char) (keyword : String) :
    (noteMissingBlock cs keyword).Keeps (·.reportsDrop = false) Fault.Speaks fun _ => True := by
  unfold noteMissingBlock
  split
  next => exact .pure trivial
  next =>
    refine .warn ?_
    simp [Warning.reportsDrop, beginsWith, dropLiteral?]

namespace Model

theorem relationsOf_keeps (keywords : PrismaKeywords) (model : Model) (field : Field)
    (target : Model) :
    (relationsOf keywords model field target).Keeps (·.reportsDrop = false) Fault.Speaks
      fun found => ∀ relationship ∈ found, relationship.IsNamed := by
  unfold relationsOf
  simp only
  split
  next fields references _ _ =>
    split
    next =>
      refine .bind (.warn ?_) fun _ _ => .pure (by simp)
      simp [Warning.reportsDrop, beginsWith, dropLiteral?]
    next =>
      refine .pure fun relationship member => ?_
      obtain ⟨pair, -, rfl⟩ := List.mem_map.mp member
      exact Relationship.link_isNamed _ _ _ _
  next =>
    split
    next => exact .pure (by simp)
    next =>
      split
      next => exact .pure (by simp [Relationship.link_isNamed])
      next => exact .pure (by simp)

theorem relationsOfField_keeps (keywords : PrismaKeywords) (models : List Model) (model : Model)
    (field : Field) :
    (relationsOfField keywords models model field).Keeps (·.reportsDrop = false) Fault.Speaks
      fun found => ∀ relationship ∈ found, relationship.IsNamed := by
  unfold relationsOfField
  split
  next => exact relationsOf_keeps keywords model field _
  next => exact .pure (by simp)

theorem relationships_keeps (keywords : PrismaKeywords) (models : List Model) (model : Model) :
    (relationships keywords models model).Keeps (·.reportsDrop = false) Fault.Speaks fun found =>
      ∀ relationship ∈ found, relationship.IsNamed := by
  have each := Journaled.Keeps.mapM model.fields fun field _ =>
    relationsOfField_keeps keywords models model field
  refine each.bind fun found named => .pure ?_
  simpa only [List.forall_mem_flatten] using named

theorem mapM_relationships_keeps (keywords : PrismaKeywords) (models : List Model) :
    (models.mapM (relationships keywords models)).Keeps (·.reportsDrop = false) Fault.Speaks
      fun found => ∀ relationship ∈ found.flatten, relationship.IsNamed := by
  have each := Journaled.Keeps.mapM models fun model _ => relationships_keeps keywords models model
  refine each.imp fun found named => ?_
  simpa only [List.forall_mem_flatten] using named

end Model

end SchemaAtlas.Blocks
