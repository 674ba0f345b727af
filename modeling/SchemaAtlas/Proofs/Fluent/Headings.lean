import SchemaAtlas.Proofs.Fluent.Scan
import SchemaAtlas.Proofs.Fluent.Schema
import SchemaAtlas.Proofs.Headings

/-!
What a script says of its tables, for both of its readers, and that its tables are those.
-/

set_option autoImplicit false

namespace SchemaAtlas.Fluent

open Script

def columnKeys (builders : List String) (entries : List (Entry Expr)) : List String :=
  entries.filterMap fun entry =>
    match entry with
    | .property name value => (Chain.ofExpr? builders value).map fun _ => name
    | .spread _ => none

/-- The heading of the table that a declaration makes, with all groups written out. -/
def heading? (keywords : DrizzleKeywords) (surroundings : Surroundings)
    (declaration : Declaration) : Option Heading := do
  let arguments ← declaration.init.bind (tableArguments? keywords surroundings.creators)
  match tableParts keywords declaration.name arguments with
  | .error _ => none
  | .ok (_, builders, entries, _) =>
    return {
      id := declaration.name
      columns := columnKeys builders (surroundings.groups.flatten entries) }

def headings (keywords : DrizzleKeywords) (text : List Char) : List Heading :=
  match Module.ofText? text with
  | .error _ => []
  | .ok script =>
    script.exported.filterMap
      (heading? keywords (Surroundings.ofDeclarations keywords script.declarations))

theorem name_of_column {keywords : DrizzleKeywords} {types : TypeProvider} {name : String}
    {chain : Chain} {found : Column} (read : chain.column keywords types name = .ok found) :
    found.name = name := by
  obtain ⟨type, -, built⟩ := bind_eq_ok.mp read
  exact (Column.ofFields?_eq_ok (mapError_eq_ok.mp built)).1

theorem name_of_column? {keywords : DrizzleKeywords} {types : TypeProvider}
    {builders : List String} {name : String} {value : Expr} {found : Option Column}
    (read : column? keywords types builders name value = .ok found) :
    found.map (·.name) = (Chain.ofExpr? builders value).map fun _ => name := by
  unfold column? at read
  split at read
  next chain recognized =>
    cases built : chain.column keywords types name with
    | error fault => rw [built] at read; cases read
    | ok column =>
      rw [built] at read
      cases read
      rw [recognized, Option.map_some, Option.map_some, name_of_column built]
  next unrecognized =>
    cases read
    rw [unrecognized]
    rfl

variable {R : Type}

theorem readColumns_gives (config : Config R) (table : String) (builders : List String)
    (entries : List (Entry Expr)) :
    (readColumns config table builders entries).Gives fun _ columns =>
      columns.map (·.name) = columnKeys builders entries := by
  fun_induction readColumns config table builders entries with
  | case1 => exact .pure rfl
  | case2 argument entries ih => exact (Journaled.Gives.warn _).bind fun _ _ _ => ih
  | case3 name value entries ih =>
    have named : (Journaled.ofExcept
        (column? config.drizzleKeywords config.drizzleTypes builders name value)).Gives
          fun _ found => found.map (·.name) = (Chain.ofExpr? builders value).map fun _ => name :=
      .ofExcept fun _ read => name_of_column? read
    refine named.bind fun _ found same => ?_
    cases found with
    | none =>
      refine (Journaled.Gives.warn _).bind fun _ _ _ => ih.imp fun _ columns names => ?_
      simpa [columnKeys, ← same] using names
    | some column =>
      refine ih.bind fun _ columns names => .pure ?_
      simpa [columnKeys, ← same] using names

theorem addIndex_gives (keywords : DrizzleKeywords) (registry : Registry R)
    (declaration : Declaration) :
    (addIndex keywords registry declaration).Gives fun _ next => next.tables = registry.tables := by
  unfold addIndex
  split
  next => exact .pure rfl
  next => exact (Journaled.Gives.warn _).bind fun _ _ _ => .pure rfl
  next => exact (Registry.attach_gives registry _ _).bind fun _ _ same => .pure same

variable [Coordinate R]

theorem addTable_registers (config : Config R) (draws : Nat → R) (surroundings : Surroundings) :
    Registers config.layout draws (addTable config draws surroundings)
      (heading? config.drizzleKeywords surroundings) := by
  intro declared state declaration laid
  obtain ⟨registry, drawn⟩ := state
  unfold addTable heading?
  simp only
  split
  next none =>
    exact .pure ⟨by simp, by simpa [none] using laid⟩
  next arguments found =>
    split
    next reason refused =>
      refine (Journaled.Gives.warn _).bind fun _ _ _ => .pure ⟨by simp, ?_⟩
      simpa [found, refused] using laid
    next name builders entries indexes parts =>
      refine (readColumns_gives _ _ _ _).bind fun counted columns names => ?_
      refine (laid.enter rfl).imp fun more next entered => ?_
      obtain ⟨drawn, laid⟩ := entered
      refine ⟨by omega, ?_⟩
      simpa [found, parts, names] using laid

theorem collect_gives (config : Config R) (draws : Nat → R) (surroundings : Surroundings)
    (script : Module) :
    (collect config draws surroundings script).Gives fun drawn registry =>
      Laid config.layout draws drawn
        (script.exported.filterMap (heading? config.drizzleKeywords surroundings))
        registry.tables := by
  have tables := (addTable_registers config draws surroundings).foldlM script.exported
  refine tables.bind fun drawn (registry, _) laid => ?_
  have indexes : (script.declarations.foldlM (addIndex config.drizzleKeywords) registry).Gives
      fun _ next => next.tables = registry.tables := by
    refine .foldlM script.declarations (fun state declaration same => ?_) registry rfl
    exact (addIndex_gives _ state declaration).imp fun _ _ kept => kept.trans same
  exact indexes.imp fun more next same => same ▸ laid.mono (Nat.le_add_right drawn more)

theorem schemaOf_gives (config : Config R) (draws : Nat → R) (script : Module) :
    (schemaOf config draws script).Gives fun drawn schema =>
      Laid config.layout draws drawn
        (script.exported.filterMap (heading? config.drizzleKeywords
          (Surroundings.ofDeclarations config.drizzleKeywords script.declarations)))
        schema.tables := by
  unfold schemaOf
  refine (collect_gives _ _ _ _).bind fun drawn registry laid => ?_
  simp only
  split
  next => exact .fail _
  next =>
    refine (Journaled.Gives.any _).bind fun more _ _ => .pure ?_
    exact laid.merged.mono (by omega)

theorem readSchema_gives (config : Config R) (draws : Nat → R) (text : List Char) :
    (readSchema config draws text).Gives fun drawn schema =>
      Laid config.layout draws drawn (headings config.drizzleKeywords text) schema.tables := by
  have parsed : (Journaled.ofExcept (Module.ofText? text)).Gives
      fun _ script => Module.ofText? text = .ok script :=
    .ofExcept fun _ found => found
  refine parsed.bind fun drawn script found => ?_
  refine (schemaOf_gives config draws script).imp fun more schema laid => ?_
  simpa only [headings, found] using laid.mono (Nat.le_add_left more drawn)

end SchemaAtlas.Fluent

namespace SchemaAtlas.Fluent.Scan

open Text

def entryParts? (cs : List Char) : Option (List Char × List Char × List Char) := do
  let (name, cs) ← takeWord? cs
  let cs ← dropMark? ':' cs
  let (builder, cs) ← takeWord? (trimLeft cs)
  return (name, builder, ← dropMark? '(' cs)

def columnKey? (cs : List Char) : Option String :=
  (entryParts? cs).map fun (name, _, _) => String.ofList name

def columnKeys (cs : List Char) : List String :=
  (splitCommas (((closeGroup? '{' cs).map (·.1)).getD cs)).filterMap columnKey?

def heading? (keywords : DrizzleKeywords) (opening : Opening) : Option Heading :=
  let head? :=
    if opening.callee ∈ keywords.enumConstructors then none
    else (tableArguments? keywords opening).bind tableHead?
  head?.map fun (_, body) => { id := opening.name, columns := columnKeys body }

def headings (keywords : DrizzleKeywords) (text : List Char) : List Heading :=
  (allMatches (fun _ => opening?) (stripComments text)).filterMap (heading? keywords)

theorem name_of_column? {types : TypeProvider} {cs : List Char} {found : Option Column}
    (read : column? types cs = .ok found) : found.map (·.name) = columnKey? cs := by
  unfold column? at read
  simp only at read
  split at read
  next unrecognized =>
    have none : entryParts? cs = none := unrecognized
    cases read
    simp [columnKey?, none]
  next name builder modifiers recognized =>
    have parts : entryParts? cs = some (name, builder, modifiers) := recognized
    obtain ⟨type, -, read⟩ := bind_eq_ok.mp read
    obtain ⟨column, built, same⟩ := bind_eq_ok.mp read
    cases same
    simp [columnKey?, parts, (Column.ofFields?_eq_ok (mapError_eq_ok.mp built)).1]

theorem names_of_columns {types : TypeProvider} {cs : List Char} {found : List Column}
    (read : columns types cs = .ok found) : found.map (·.name) = columnKeys cs := by
  obtain ⟨entries, mapped, same⟩ := bind_eq_ok.mp read
  cases same
  exact filterMap_of_mapM mapped fun _ _ => name_of_column?

variable {R : Type} [Coordinate R]

theorem addTable_registers (config : Config R) (draws : Nat → R) :
    Registers config.layout draws (addTable config draws)
      (heading? config.drizzleKeywords) := by
  intro declared state opening laid
  obtain ⟨registry, drawn⟩ := state
  unfold addTable heading?
  simp only
  generalize (if opening.callee ∈ config.drizzleKeywords.enumConstructors then none
    else (tableArguments? config.drizzleKeywords opening).bind tableHead?) = head?
  cases head? with
  | none => exact .pure ⟨by simp, by simpa using laid⟩
  | some head =>
    obtain ⟨name, body⟩ := head
    have named : (Journaled.ofExcept (columns config.drizzleTypes body)).Gives
        fun _ columns => columns.map (·.name) = columnKeys body :=
      .ofExcept fun _ read => names_of_columns read
    refine named.bind fun counted columns names => ?_
    refine (laid.enter rfl).imp fun more next entered => ?_
    obtain ⟨drawn, laid⟩ := entered
    refine ⟨by omega, ?_⟩
    simpa [names] using laid

theorem readSchema_gives (config : Config R) (draws : Nat → R) (text : List Char) :
    (readSchema config draws text).Gives fun drawn schema =>
      Laid config.layout draws drawn (headings config.drizzleKeywords text) schema.tables := by
  refine .mapFault _ ?_
  have tables := (addTable_registers config draws).foldlM
    (allMatches (fun _ => opening?) (stripComments text))
  refine tables.bind fun drawn (registry, _) laid => ?_
  exact (Journaled.Gives.any _).bind fun more _ _ => .pure (laid.merged.mono (by omega))

end SchemaAtlas.Fluent.Scan
