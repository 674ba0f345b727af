import SchemaAtlas.Proofs.Fluent.Schema
import SchemaAtlas.Proofs.Rearranged

/-!
What a script declares, put together from its declarations one by one: each gives what it provides
for the tables, perhaps a table of its own, and perhaps an index for a table.
-/

set_option autoImplicit false

namespace SchemaAtlas.Fluent

open Script

namespace Groups

theorem entries?_perm {groups others : Groups} (perm : groups.Perm others)
    (distinct : (groups.map (·.name)).Nodup) (name : String) :
    groups.entries? name = others.entries? name := by
  have reversed : groups.reverse.Perm others.reverse :=
    (groups.reverse_perm.trans perm).trans others.reverse_perm.symm
  have apart : (groups.reverse.map (·.name)).Nodup :=
    (groups.reverse_perm.map _).nodup_iff.mpr distinct
  rw [entries?, entries?, find?_perm reversed apart]

theorem replaceSpread_congr {groups others : Groups}
    (same : ∀ name, groups.entries? name = others.entries? name)
    (inside : String → List (Entry Expr) → List (Entry Expr)) :
    groups.replaceSpread inside = others.replaceSpread inside := by
  funext entry
  unfold replaceSpread
  split
  next name => rw [same]
  next => rfl

theorem writeOut_congr {groups others : Groups}
    (same : ∀ name, groups.entries? name = others.entries? name) (depth : Nat)
    (expanding : List String) (entries : List (Entry Expr)) :
    groups.writeOut depth expanding entries = others.writeOut depth expanding entries := by
  induction depth generalizing expanding entries with
  | zero => rw [writeOut, writeOut, replaceSpread_congr same]
  | succ depth ih =>
    rw [writeOut, writeOut, replaceSpread_congr same]
    simp only [ih]

theorem flatten_perm {groups others : Groups} (perm : groups.Perm others)
    (distinct : (groups.map (·.name)).Nodup) : groups.flatten = others.flatten := by
  funext entries
  rw [flatten, flatten, perm.length_eq]
  exact writeOut_congr (entries?_perm perm distinct) _ _ _

end Groups

namespace Surroundings

/-- What one declaration provides. -/
def own (keywords : DrizzleKeywords) (declaration : Declaration) : Surroundings :=
  add keywords {} declaration

theorem add_eq (keywords : DrizzleKeywords) (surroundings : Surroundings)
    (declaration : Declaration) :
    surroundings.add keywords declaration =
      { enums := surroundings.enums ++ (own keywords declaration).enums
        groups := surroundings.groups ++ (own keywords declaration).groups
        creators := surroundings.creators ++ (own keywords declaration).creators } := by
  unfold own add
  split
  next => simp
  next =>
    split
    next => simp
    next => split <;> simp
  next => simp

theorem ofDeclarations_eq (keywords : DrizzleKeywords) (declarations : List Declaration) :
    ofDeclarations keywords declarations =
      { enums := declarations.flatMap fun declaration => (own keywords declaration).enums
        groups := declarations.flatMap fun declaration => (own keywords declaration).groups
        creators := declarations.flatMap fun declaration => (own keywords declaration).creators } := by
  have run (surroundings : Surroundings) : declarations.foldl (add keywords) surroundings =
      { enums := surroundings.enums ++
          declarations.flatMap fun declaration => (own keywords declaration).enums
        groups := surroundings.groups ++
          declarations.flatMap fun declaration => (own keywords declaration).groups
        creators := surroundings.creators ++
          declarations.flatMap fun declaration => (own keywords declaration).creators } := by
    induction declarations generalizing surroundings with
    | nil => simp
    | cons declaration declarations ih =>
      rw [List.foldl_cons, ih, add_eq]
      simp only [List.append_assoc, List.flatMap_cons]
  rw [ofDeclarations, run]
  rfl

theorem names_own_groups (keywords : DrizzleKeywords) (declaration : Declaration) :
    ((own keywords declaration).groups.map (·.name)).Sublist [declaration.name] := by
  unfold own add
  split
  next => simp
  next =>
    split
    next => simp
    next => split <;> simp
  next => simp

theorem nodup_groups (keywords : DrizzleKeywords) {declarations : List Declaration}
    (distinct : (declarations.map (·.name)).Nodup) :
    ((ofDeclarations keywords declarations).groups.map (·.name)).Nodup := by
  rw [ofDeclarations_eq, List.map_flatMap]
  refine distinct.sublist ?_
  clear distinct
  induction declarations with
  | nil => exact .slnil
  | cons declaration declarations ih =>
    rw [List.flatMap_cons]
    exact (names_own_groups keywords declaration).append ih

/-- Two surroundings mean the same to every table. -/
structure Agrees (surroundings other : Surroundings) : Prop where
  creators : ∀ name, name ∈ surroundings.creators ↔ name ∈ other.creators
  groups : surroundings.groups.flatten = other.groups.flatten

theorem ofDeclarations_agrees (keywords : DrizzleKeywords) {declarations others : List Declaration}
    (perm : declarations.Perm others) (distinct : (declarations.map (·.name)).Nodup) :
    (ofDeclarations keywords declarations).Agrees (ofDeclarations keywords others) where
  creators name := by
    rw [ofDeclarations_eq, ofDeclarations_eq]
    exact (perm.flatMap fun _ _ => .refl _).mem_iff
  groups := by
    refine Groups.flatten_perm ?_ (nodup_groups keywords distinct)
    rw [ofDeclarations_eq, ofDeclarations_eq]
    exact perm.flatMap fun _ _ => .refl _

theorem enums_perm (keywords : DrizzleKeywords) {declarations others : List Declaration}
    (perm : declarations.Perm others) :
    (ofDeclarations keywords declarations).enums.Perm (ofDeclarations keywords others).enums := by
  rw [ofDeclarations_eq, ofDeclarations_eq]
  exact perm.flatMap fun _ _ => .refl _

end Surroundings

theorem makesTable_congr (keywords : DrizzleKeywords) {creators others : List String}
    (same : ∀ name, name ∈ creators ↔ name ∈ others) :
    makesTable keywords creators = makesTable keywords others := by
  funext callee
  unfold makesTable
  simp only [same]

theorem tableArguments?_congr (keywords : DrizzleKeywords) {creators others : List String}
    (same : ∀ name, name ∈ creators ↔ name ∈ others) (value : Expr) :
    tableArguments? keywords creators value = tableArguments? keywords others value := by
  have makes := makesTable_congr keywords same
  fun_induction tableArguments? keywords creators value with
  | case1 object method arguments made =>
    rw [tableArguments?, ← makes, if_pos made]
  | case2 object method arguments other ih =>
    rw [tableArguments?, ← makes, if_neg other, ih]
  | case3 callee arguments plain made =>
    rw [tableArguments?, ← makes, if_pos made]
    exact plain
  | case4 callee arguments plain other =>
    rw [tableArguments?, ← makes, if_neg other]
    exact plain
  | case5 => simp_all [tableArguments?]

variable {R : Type}

/-- The table of a declaration, if it declares one, wherever it is put. -/
def ownTable? (config : Config R) (surroundings : Surroundings) (declaration : Declaration) :
    Except Fault (Option TableContents) :=
  match declaration.init.bind (tableArguments? config.drizzleKeywords surroundings.creators) with
  | none => .ok none
  | some arguments =>
    match tableParts config.drizzleKeywords declaration.name arguments with
    | .error _ => .ok none
    | .ok (name, builders, entries, indexes) =>
      (readColumns config declaration.name builders
        (surroundings.groups.flatten entries)).outcome.map fun columns =>
          some { id := declaration.name, name, columns, indexes }

theorem Surroundings.Agrees.ownTable? {surroundings other : Surroundings}
    (agrees : surroundings.Agrees other) (config : Config R) :
    ownTable? config surroundings = ownTable? config other := by
  funext declaration
  rw [Fluent.ownTable?, Fluent.ownTable?,
    funext (tableArguments?_congr config.drizzleKeywords agrees.creators), agrees.groups]

theorem id_of_ownTable? {config : Config R} {surroundings : Surroundings}
    {declaration : Declaration} {contents : TableContents}
    (found : ownTable? config surroundings declaration = .ok (some contents)) :
    contents.id = declaration.name := by
  unfold ownTable? at found
  split at found
  next => cases found
  next =>
    split at found
    next => cases found
    next =>
      obtain ⟨columns, -, same⟩ := map_eq_ok.mp found
      cases same
      rfl

theorem tableIds_of_ownTable? {config : Config R} {surroundings : Surroundings}
    {declaration : Declaration} {found : Option TableContents}
    (own : ownTable? config surroundings declaration = .ok found) {registry next : Registry R}
    (contents : next.contents = registry.contents ++ found.toList) :
    next.tableIds.Sublist (registry.tableIds ++ [declaration.name]) := by
  rw [← Registry.map_id_contents, contents, List.map_append, Registry.map_id_contents]
  refine (List.Sublist.refl _).append ?_
  cases found with
  | none => exact List.nil_sublist _
  | some table => rw [Option.toList_some, List.map_singleton, id_of_ownTable? own]

/-- The index that a declaration adds to one of the tables, if it adds one, with the id of that
table. -/
def ownIndex? (keywords : DrizzleKeywords) (tables : List String) (declaration : Declaration) :
    Option (String × Index) :=
  match declaration.init.bind (IndexCall.ofExpr? keywords declaration.name) with
  | some { index, owners := owner :: _ } => if owner ∈ tables then some (owner, index) else none
  | _ => none

theorem ownIndex?_congr (keywords : DrizzleKeywords) {tables others : List String}
    (same : ∀ id, id ∈ tables ↔ id ∈ others) :
    ownIndex? keywords tables = ownIndex? keywords others := by
  funext declaration
  unfold ownIndex?
  simp only [same]

theorem addIndex_outcome (keywords : DrizzleKeywords) (registry : Registry R)
    (declaration : Declaration) :
    (addIndex keywords registry declaration).outcome =
      .ok { registry with
        pending := registry.pending ++ (ownIndex? keywords registry.tableIds declaration).toList } := by
  have unchanged : registry =
      { registry with pending := registry.pending ++ (none : Option (String × Index)).toList } := by
    rw [Option.toList_none, List.append_nil]
  cases called : declaration.init.bind (IndexCall.ofExpr? keywords declaration.name) with
  | none =>
    simp only [addIndex, ownIndex?, called]
    exact congrArg Except.ok unchanged
  | some call =>
    obtain ⟨index, owners⟩ := call
    cases owners with
    | nil =>
      simp only [addIndex, ownIndex?, called]
      exact congrArg Except.ok unchanged
    | cons owner owners =>
      simp only [addIndex, ownIndex?, called, Registry.attach, Registry.hasTable_eq]
      by_cases known : owner ∈ registry.tableIds
      · simp only [known, decide_true, if_true]
        rfl
      · simp only [known, decide_false, if_false, Bool.false_eq_true]
        exact congrArg Except.ok unchanged

theorem addIndexes_outcome (keywords : DrizzleKeywords) (registry : Registry R)
    (declarations : List Declaration) :
    (declarations.foldlM (addIndex keywords) registry).outcome =
      .ok { registry with
        pending :=
          registry.pending ++ declarations.filterMap (ownIndex? keywords registry.tableIds) } := by
  induction declarations generalizing registry with
  | nil => simp
  | cons declaration declarations ih =>
    rw [List.foldlM_cons, Journaled.bind_outcome, addIndex_outcome]
    refine (ih _).trans ?_
    -- An index that waits leaves the tables as they are, so the rest is judged by the same ids.
    show Except.ok { registry with pending := (registry.pending ++ _) ++ _ } = _
    simp only [List.append_assoc, List.filterMap_eq_flatMap_toList, List.flatMap_cons]
    rfl

/-- All relationships that the declarations and the columns of a script name. -/
def candidates (config : Config R) (script : Module) (registry : Registry R) : List Relationship :=
  declared config.drizzleKeywords script ++ Relationship.ofReferences registry.merged

/-- The schema of a script whose tables are collected. -/
def assemble (config : Config R) (script : Module) (registry : Registry R) : Schema R where
  tables := registry.merged
  relationships := Relationship.admitted config.deduplicateRelationships registry.tableIds
    (candidates config script registry)
  enums := (Surroundings.ofDeclarations config.drizzleKeywords script.declarations).enums

variable [Coordinate R]

/-- A declaration whose name is new puts its own table behind those before it. -/
theorem addTable_outcome (config : Config R) (draws : Nat → R) (surroundings : Surroundings)
    {registry : Registry R} (drawn : Nat) {declaration : Declaration}
    (new : declaration.name ∉ registry.tableIds) :
    (addTable config draws surroundings (registry, drawn) declaration).outcome.map
        (fun state => (state.1.contents, state.1.pending)) =
      (ownTable? config surroundings declaration).map fun found =>
        (registry.contents ++ found.toList, registry.pending) := by
  have unchanged : (registry.contents, registry.pending) =
      (registry.contents ++ (none : Option TableContents).toList, registry.pending) := by
    rw [Option.toList_none, List.append_nil]
  cases called : declaration.init.bind
      (tableArguments? config.drizzleKeywords surroundings.creators) with
  | none =>
    simp only [addTable, ownTable?, called]
    exact congrArg Except.ok unchanged
  | some arguments =>
    cases parts : tableParts config.drizzleKeywords declaration.name arguments with
    | error reason =>
      simp only [addTable, ownTable?, called, parts]
      exact congrArg Except.ok unchanged
    | ok found =>
      obtain ⟨name, builders, entries, indexes⟩ := found
      simp only [addTable, ownTable?, called, parts, Journaled.bind_outcome]
      cases (readColumns config declaration.name builders
          (surroundings.groups.flatten entries)).outcome with
      | error fault => rfl
      | ok columns =>
        simp only [Except.bind, Journaled.record_outcome]
        rw [Registry.register_of_new (by exact new)]
        simp [Except.map, Registry.contents, Table.contents]

/-- The tables of declarations with different names are put one behind the other. -/
theorem addTables_outcome (config : Config R) (draws : Nat → R) (surroundings : Surroundings)
    {registry : Registry R} (drawn : Nat) {declarations : List Declaration}
    (distinct : (registry.tableIds ++ declarations.map (·.name)).Nodup) :
    (declarations.foldlM (addTable config draws surroundings) (registry, drawn)).outcome.map
        (fun state => (state.1.contents, state.1.pending)) =
      (declarations.mapM (ownTable? config surroundings)).map fun found =>
        (registry.contents ++ found.filterMap id, registry.pending) := by
  -- The registry is general: the rest of the declarations meets what the first one left.
  induction declarations generalizing registry drawn with
  | nil =>
    rw [List.foldlM_nil, List.mapM_nil]
    have none : registry.contents ++ ([] : List (Option TableContents)).filterMap id =
        registry.contents := by
      rw [List.filterMap_nil, List.append_nil]
    exact congrArg (fun contents => Except.ok (contents, registry.pending)) none.symm
  | cons declaration declarations ih =>
    rw [List.map_cons] at distinct
    have new : declaration.name ∉ registry.tableIds := fun member =>
      (List.nodup_append.mp distinct).2.2 _ member _ (.head _) rfl
    have here := addTable_outcome config draws surroundings drawn new
    rw [List.foldlM_cons, List.mapM_cons, Journaled.bind_outcome]
    cases own : ownTable? config surroundings declaration with
    | error fault =>
      rw [own] at here
      have failed := map_eq_error.mp here
      rw [failed]
      rfl
    | ok found =>
      rw [own] at here
      obtain ⟨⟨next, drawn'⟩, added, same⟩ := map_eq_ok.mp here
      obtain ⟨contents, pending⟩ := Prod.mk.inj same
      have distinct' : (next.tableIds ++ declarations.map (·.name)).Nodup := by
        refine distinct.sublist ?_
        rw [List.append_cons]
        exact (tableIds_of_ownTable? own contents).append (.refl _)
      have later := ih drawn' distinct'
      rw [contents, pending] at later
      rw [added]
      refine later.trans ?_
      cases declarations.mapM (ownTable? config surroundings) with
      | error fault => rfl
      | ok rest =>
        cases found <;> simp [Except.map, bind, Except.bind, pure, Except.pure]

/-- What is collected from a script: the tables of its exported declarations and the indexes of all
declarations for these. -/
theorem collect_outcome (config : Config R) (draws : Nat → R) (surroundings : Surroundings)
    {script : Module} (distinct : (script.exported.map (·.name)).Nodup) :
    (collect config draws surroundings script).outcome.map
        (fun registry => (registry.contents, registry.pending)) =
      (script.exported.mapM (ownTable? config surroundings)).map fun found =>
        (found.filterMap id, script.declarations.filterMap
          (ownIndex? config.drizzleKeywords ((found.filterMap id).map (·.id)))) := by
  have start : (({} : Registry R).tableIds ++ script.exported.map (·.name)).Nodup := distinct
  have tables := addTables_outcome config draws surroundings 0 start
  rw [collect, Journaled.bind_outcome]
  cases mapped : script.exported.mapM (ownTable? config surroundings) with
  | error fault =>
    rw [mapped] at tables
    rw [map_eq_error.mp tables]
    rfl
  | ok found =>
    rw [mapped] at tables
    obtain ⟨⟨registry, drawn⟩, added, same⟩ := map_eq_ok.mp tables
    obtain ⟨contents, pending⟩ := Prod.mk.inj same
    have contents : registry.contents = found.filterMap id := contents
    have pending : registry.pending = [] := pending
    rw [added]
    simp only [Except.bind, addIndexes_outcome, ← Registry.map_id_contents, contents, pending,
      List.nil_append]
    exact congrArg (fun contents => Except.ok (contents, _)) contents

/-- When a script can be read: its tables can be collected, it has a table or an enumeration, and a
strict mode finds every end of a relationship among the tables. -/
theorem schemaOf_eq_ok {config : Config R} {draws : Nat → R} {script : Module} {schema : Schema R} :
    (schemaOf config draws script).outcome = .ok schema ↔
      ∃ registry, (collect config draws
          (Surroundings.ofDeclarations config.drizzleKeywords script.declarations) script).outcome =
            .ok registry ∧
        (config.onUnresolved = .fail → ∀ candidate ∈ candidates config script registry,
          candidate.Joins registry.tableIds) ∧
        (assemble config script registry).isEmpty = false ∧
        schema = assemble config script registry := by
  unfold schemaOf
  simp only
  rw [Journaled.bind_outcome_ok]
  refine exists_congr fun registry => and_congr_right fun _ => ?_
  split
  next empty =>
    constructor
    next => rintro ⟨⟩
    next =>
      rintro ⟨-, some, -⟩
      exact absurd empty (by simpa [Schema.isEmpty, assemble] using some)
  next held =>
    rw [Journaled.bind_outcome_ok]
    constructor
    next =>
      rintro ⟨settled, kept, same⟩
      obtain ⟨rfl, strict⟩ := Relationship.settle_eq_ok.mp kept
      cases same
      exact ⟨strict, by simpa [Schema.isEmpty, assemble] using held, rfl⟩
    next =>
      rintro ⟨strict, -, rfl⟩
      exact ⟨_, Relationship.settle_eq_ok.mpr ⟨rfl, strict⟩, rfl⟩

end SchemaAtlas.Fluent
