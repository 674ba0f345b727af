import SchemaAtlas.Proofs.Blocks.Parts
import SchemaAtlas.Proofs.Text.Closed

/-!
The lines on which blocks stand decide on nothing but the lines that are noted in models and fields,
and no part of a schema depends on those.
-/

set_option autoImplicit false

namespace SchemaAtlas.Blocks

open Text

/-- The field without the line that it stands on. -/
def Field.unnumbered (field : Field) : Field := { field with line := 0 }

namespace Model

/-- The model without the lines that it and its fields stand on. -/
def unnumbered (model : Model) : Model :=
  { model with fields := model.fields.map Field.unnumbered, line := 0 }

@[simp] theorem unnumbered_name (model : Model) : model.unnumbered.name = model.name := rfl

@[simp] theorem unnumbered_fields (model : Model) :
    model.unnumbered.fields = model.fields.map Field.unnumbered := rfl

@[simp] theorem map_name_unnumbered (models : List Model) :
    (models.map unnumbered).map (·.name) = models.map (·.name) := by
  rw [List.map_map]
  rfl

namespace Item

/-- What a line holds, without the number of the line. -/
def unnumbered : Item → Item
  | .nothing => .nothing
  | .field declared => .field declared.unnumbered
  | .attributes found => .attributes found

/-- The model with what one more line in front of the others holds. -/
def put (item : Item) (model : Model) : Model :=
  match item with
  | .nothing => model
  | .field declared => { model with fields := declared :: model.fields }
  | .attributes found => { model with attributes := found ++ model.attributes }

theorem put_unnumbered (item : Item) (model : Model) :
    (item.put model).unnumbered = item.unnumbered.put model.unnumbered := by
  cases item <;> rfl

theorem ofLine?_unnumbered (line other : Nat) (cs : List Char) :
    (ofLine? line cs).map unnumbered = (ofLine? other cs).map unnumbered := by
  unfold ofLine?
  simp only
  split
  next => rfl
  next =>
    split
    next => rfl
    next =>
      unfold Field.ofLine?
      cases Field.parts? (trim cs) with
      | none => rfl
      | some parts =>
        obtain ⟨name, type, rest⟩ := parts
        simp only
        cases Attribute.listOf? rest <;> rfl

end Item

theorem ofLines?_unnumbered (name : String) (start start' line line' : Nat)
    (lines : List (List Char)) : (ofLines? name start line lines).map unnumbered =
      (ofLines? name start' line' lines).map unnumbered := by
  induction lines generalizing line line' with
  | nil => rfl
  | cons cs lines ih =>
    have step (start line : Nat) : (ofLines? name start line (cs :: lines)).map unnumbered =
        ((Item.ofLine? line cs).map Item.unnumbered).bind fun item =>
          ((ofLines? name start (line + 1) lines).map unnumbered).map item.put := by
      rw [ofLines?]
      cases Item.ofLine? line cs with
      | error fault => rfl
      | ok item =>
        cases ofLines? name start (line + 1) lines with
        | error fault => rfl
        | ok model => exact congrArg Except.ok (Item.put_unnumbered item model)
    rw [step, step, Item.ofLine?_unnumbered line line', ih (line + 1) (line' + 1)]

theorem ofBlock?_unnumbered (block : Block) :
    (ofBlock? block).map unnumbered = (ofBlock? block.unnumbered).map unnumbered :=
  ofLines?_unnumbered _ _ _ _ _ _

/-- No relationship depends on the number of a line. -/
theorem relationsOf_unnumbered (keywords : PrismaKeywords) (model : Model) (field : Field)
    (target : Model) :
    model.unnumbered.relationsOf keywords field.unnumbered target.unnumbered =
      model.relationsOf keywords field target := by
  have source : model.unnumbered.foreignKey? field.name =
      (model.foreignKey? field.name).map Field.unnumbered := List.find?_map
  have column : target.unnumbered.fields.find? (·.hasAttribute keywords.idAttribute) =
      (target.fields.find? (·.hasAttribute keywords.idAttribute)).map Field.unnumbered :=
    List.find?_map
  have relation : field.unnumbered.attribute? keywords.relationAttribute =
      field.attribute? keywords.relationAttribute := rfl
  simp only [relationsOf, relation]
  split
  next => rfl
  next =>
    rw [column, show field.unnumbered.name = field.name from rfl, source]
    cases model.foreignKey? field.name with
    | none => rfl
    | some key => cases target.fields.find? (·.hasAttribute keywords.idAttribute) <;> rfl

theorem relationships_unnumbered (keywords : PrismaKeywords) (models : List Model) (model : Model) :
    model.unnumbered.relationships keywords (models.map unnumbered) =
      model.relationships keywords models := by
  have each (field : Field) : model.unnumbered.relationsOfField keywords (models.map unnumbered)
      field.unnumbered = model.relationsOfField keywords models field := by
    have known : (models.map unnumbered).find? (·.name = field.unnumbered.type) =
        (models.find? (·.name = field.type)).map unnumbered := List.find?_map
    rw [relationsOfField, relationsOfField, known]
    cases models.find? (·.name = field.type) with
    | none => rfl
    | some target => exact relationsOf_unnumbered keywords model field target
  rw [relationships, relationships, unnumbered_fields, List.mapM_map]
  exact congrArg (· >>= _) (mapM_congr fun field _ => each field)

variable {R : Type} {config : Config R}

theorem ownLinks_unnumbered (models : List Model) (model : Model) :
    model.unnumbered.ownLinks config (models.map unnumbered) = model.ownLinks config models := by
  rw [ownLinks, ownLinks, links, links, relationships_unnumbered]

theorem ownTable_unnumbered (models : List Model) (enums : List String) (model : Model) :
    model.unnumbered.ownTable config (models.map unnumbered) enums =
      model.ownTable config models enums := by
  rw [ownTable, ownTable, map_name_unnumbered, ownLinks_unnumbered, contents, contents]
  have columns : model.unnumbered.columns config.prismaKeywords config.prismaTypes
      (models.map (·.name)) enums (model.ownLinks config models) =
        model.columns config.prismaKeywords config.prismaTypes (models.map (·.name)) enums
          (model.ownLinks config models) := by
    rw [Model.columns, Model.columns, unnumbered_fields, List.filter_map, List.mapM_map]
    rfl
  rw [columns]
  rfl

end Model

variable {R : Type} {config : Config R}

theorem assemble_unnumbered (models : List Model) (enums : List Enumeration) :
    assemble config (models.map Model.unnumbered) enums = assemble config models enums := by
  have tables : (models.map Model.unnumbered).mapM
      (Model.ownTable config (models.map Model.unnumbered) (enums.map (·.name))) =
        models.mapM (Model.ownTable config models (enums.map (·.name))) := by
    rw [List.mapM_map]
    exact mapM_congr fun model _ => Model.ownTable_unnumbered models _ model
  have links : (models.map Model.unnumbered).flatMap
      (Model.ownLinks config (models.map Model.unnumbered)) =
        models.flatMap (Model.ownLinks config models) := by
    rw [List.flatMap_map]
    exact List.flatMap_congr fun model _ => Model.ownLinks_unnumbered models model
  rw [assemble, assemble, tables, links]

end SchemaAtlas.Blocks
