import SchemaAtlas.Proofs.Blocks.Scan
import SchemaAtlas.Proofs.Blocks.Schema
import SchemaAtlas.Proofs.Headings

/-!
What the models of a text say of its tables, for both of its readers, and that its tables are those.
-/

set_option autoImplicit false

namespace SchemaAtlas.Blocks

open Text

/-- The heading of the table of a model: fields whose type is a model are no columns. -/
def Model.heading (models : List String) (model : Model) : Heading where
  id := model.name
  columns := (model.fields.filter (·.type ∉ models)).map (·.name)

def headings (keywords : PrismaKeywords) (text : List Char) : List Heading :=
  match (collect keywords (stripComments text)).outcome with
  | .error _ => []
  | .ok (models, _) => models.map (Model.heading (models.map (·.name)))

/-- A model that is declared again is replaced before tables are made of the models. -/
theorem nodup_ids_headings (keywords : PrismaKeywords) (text : List Char) :
    (Heading.ids (headings keywords text)).Nodup := by
  have distinct := (collect_keeps keywords (stripComments text)).value
  unfold headings
  split
  next => exact List.nodup_nil
  next models enums found =>
    have ids : Heading.ids (models.map (Model.heading (models.map (·.name)))) =
        models.map (·.name) := by
      simp [Heading.ids, Model.heading]
    rw [ids]
    exact distinct _ found

theorem Model.names_of_columns {keywords : PrismaKeywords} {types : TypeProvider}
    {models enums : List String} {relationships : List Relationship} {model : Model}
    {found : List Column}
    (read : model.columns keywords types models enums relationships = .ok found) :
    found.map (·.name) = (model.heading models).columns :=
  map_of_mapM read fun _ _ here => (Field.column_eq_ok here).1

variable {R : Type} [Coordinate R]

theorem readTable_gives (config : Config R) (draws : Nat → R) (models enums : List String)
    (relationships : List Relationship) {declared : List Heading} (model : Model)
    (distinct : (Heading.ids declared).Nodup) :
    (readTable config draws models enums relationships declared.length model).Gives
      fun drawn table => drawn = 1 ∧ table.MadeFrom config.layout (draws declared.length) declared
        (model.heading models) := by
  have named : (Journaled.ofExcept (model.columns config.prismaKeywords config.prismaTypes models
      enums relationships)).Gives fun drawn columns =>
        drawn = 0 ∧ columns.map (·.name) = (model.heading models).columns :=
    .ofExcept fun _ read => ⟨rfl, Model.names_of_columns read⟩
  have one : (Journaled.record { draws := 1 }).Gives fun drawn _ => drawn = 1 := .record rfl
  refine named.bind fun drawn columns ⟨undrawn, names⟩ => one.bind fun more _ counted => .pure ?_
  refine ⟨by omega, rfl, names, ?_⟩
  rw [Firsts.eraseDups_of_nodup distinct, Heading.ids, List.length_map]

theorem readTables_gives (config : Config R) (draws : Nat → R) (models enums : List String)
    (relationships : List Relationship) (rest : List Model) {declared : List Heading}
    {tables : List (Table R)}
    (laid : Laid config.layout draws declared.length declared tables)
    (distinct : (Heading.ids declared ++ rest.map (·.name)).Nodup) :
    (readTables config draws models enums relationships declared.length rest).Gives
      fun drawn found => Laid config.layout draws (declared.length + drawn)
        (declared ++ rest.map (Model.heading models)) (tables ++ found) := by
  -- What is declared so far is general: the first model adds its own heading to it.
  induction rest generalizing declared tables with
  | nil => exact .pure (by simpa using laid)
  | cons model rest ih =>
    obtain ⟨earlier, -, apart⟩ := List.nodup_append.mp distinct
    refine (readTable_gives config draws models enums relationships model earlier).bind
      fun drawn table ⟨one, made⟩ => ?_
    have new : table.id ∉ tables.map (·.id) := by
      rw [laid.ids, List.mem_eraseDups, ← made.id]
      exact fun member => apart _ member _ List.mem_cons_self rfl
    have entered : Laid config.layout draws (declared ++ [model.heading models]).length
        (declared ++ [model.heading models]) (tables ++ [table]) := by
      rw [← Keyed.put_of_new new, ← Registry.put_eq, List.length_append]
      exact laid.put made
    have later : (Heading.ids (declared ++ [model.heading models]) ++ rest.map (·.name)).Nodup := by
      simpa [Heading.ids, Model.heading] using distinct
    have more := ih entered later
    rw [List.length_append] at more
    refine more.bind fun drawn' found laid' => .pure ?_
    simpa [one, Nat.add_assoc] using laid'

theorem schemaOf_gives (config : Config R) (draws : Nat → R) {models : List Model}
    (distinct : Distinct models) (enums : List Enumeration) :
    (schemaOf config draws models enums).Gives fun drawn schema =>
      Laid config.layout draws drawn (models.map (Model.heading (models.map (·.name))))
        schema.tables := by
  unfold schemaOf
  split
  next => exact .fail _
  next =>
    refine (Journaled.Gives.any _).bind fun drawn found _ => ?_
    refine (Journaled.Gives.any _).bind fun drawn' links _ => ?_
    have start : Laid config.layout draws ([] : List Heading).length [] [] := Laid.empty _ _
    refine (readTables_gives config draws _ _ links models start distinct).bind
      fun more tables laid => .pure ?_
    exact Laid.mono laid (by rw [List.length_nil]; omega)

theorem readSchema_gives (config : Config R) (draws : Nat → R) (text : List Char) :
    (readSchema config draws text).Gives fun drawn schema =>
      Laid config.layout draws drawn (headings config.prismaKeywords text) schema.tables := by
  unfold readSchema
  simp only
  split
  next => exact .fail _
  next =>
    split
    next => exact .fail _
    next =>
      have collected : (collect config.prismaKeywords (stripComments text)).Gives fun _ found =>
          (collect config.prismaKeywords (stripComments text)).outcome = .ok found :=
        fun _ found => found
      refine collected.bind fun drawn found outcome => ?_
      have distinct := (collect_keeps config.prismaKeywords (stripComments text)).value _ outcome
      refine (schemaOf_gives config draws distinct found.2).imp fun more schema laid => ?_
      simpa only [headings, outcome] using laid.mono (Nat.le_add_left more drawn)

end SchemaAtlas.Blocks

namespace SchemaAtlas.Blocks.Scan

open Text

def fieldName? (types : TypeProvider) (cs : List Char) : Option String :=
  let cs := trim cs
  if cs.isEmpty || beginsWith ['@', '@'] cs then none
  else
    match Field.parts? cs with
    | none => none
    | some (name, type, _) =>
      match types.resolve (String.ofList (plainType type)) with
      | .ok (some _) => some (String.ofList name)
      | _ => none

def heading? (types : TypeProvider) (model : List Char × List Char) : Option Heading :=
  let columns := (lines model.2).filterMap (fieldName? types)
  if columns.isEmpty then none else some { id := String.ofList model.1, columns }

def headings (types : TypeProvider) (text : List Char) : List Heading :=
  (allMatches (flatBlock? ['m', 'o', 'd', 'e', 'l']) (stripComments text)).filterMap
    (heading? types)

theorem name_of_column? {types : TypeProvider} {cs : List Char} {found : Option Column}
    (read : column? types cs = .ok found) : found.map (·.name) = fieldName? types cs := by
  unfold column? at read
  unfold fieldName?
  by_cases bare : ((trim cs).isEmpty || beginsWith ['@', '@'] (trim cs)) = true
  next =>
    simp only [bare, if_true] at read ⊢
    cases read
    rfl
  next =>
    simp only [bare, if_false, Bool.false_eq_true] at read ⊢
    cases recognized : Field.parts? (trim cs) with
    | none =>
      simp only [recognized] at read
      cases read
      rfl
    | some parts =>
      obtain ⟨name, type, rest⟩ := parts
      simp only [recognized] at read
      obtain ⟨resolved, known, read⟩ := bind_eq_ok.mp read
      simp only [known]
      cases resolved with
      | none => cases read; rfl
      | some resolved =>
        obtain ⟨column, built, same⟩ := bind_eq_ok.mp read
        cases same
        rw [Option.map_some, (Column.ofFields?_eq_ok (mapError_eq_ok.mp built)).1]

theorem names_of_columns {types : TypeProvider} {body : List Char} {found : List Column}
    (read : columns types body = .ok found) :
    found.map (·.name) = (lines body).filterMap (fieldName? types) := by
  obtain ⟨entries, mapped, same⟩ := bind_eq_ok.mp read
  cases same
  exact filterMap_of_mapM mapped fun _ _ => name_of_column?

variable {R : Type} [Coordinate R]

theorem addModel_registers (config : Config R) (draws : Nat → R) :
    Registers config.layout draws (addModel config draws) (heading? config.prismaTypes) := by
  intro declared state model laid
  obtain ⟨registry, drawn⟩ := state
  unfold addModel heading?
  have named : (Journaled.ofExcept (columns config.prismaTypes model.2)).Gives
      fun _ columns => columns.map (·.name) =
        (lines model.2).filterMap (fieldName? config.prismaTypes) :=
    .ofExcept fun _ read => names_of_columns read
  refine named.bind fun counted columns names => ?_
  have bare : columns.isEmpty = (columns.map (·.name)).isEmpty := by simp
  rw [names] at bare
  simp only [bare]
  split
  next empty =>
    refine (Journaled.Gives.warn _).bind fun _ _ _ => .pure ⟨by simp, ?_⟩
    simpa [empty] using laid
  next held =>
    refine (laid.enter rfl).imp fun more next entered => ?_
    obtain ⟨drawn, laid⟩ := entered
    refine ⟨by omega, ?_⟩
    simpa [held, names] using laid

theorem readSchema_gives (config : Config R) (draws : Nat → R) (text : List Char) :
    (readSchema config draws text).Gives fun drawn schema =>
      Laid config.layout draws drawn (headings config.prismaTypes text) schema.tables := by
  refine .mapFault _ ?_
  have tables := (addModel_registers config draws).foldlM
    (allMatches (flatBlock? ['m', 'o', 'd', 'e', 'l']) (stripComments text))
  exact tables.bind fun drawn (registry, _) laid => .pure laid.merged

end SchemaAtlas.Blocks.Scan
