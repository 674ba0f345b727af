import SchemaAtlas.Config
import SchemaAtlas.Proofs.Fluent.Parts

/-!
Declarations of different names in one script. In whatever order they stand, all of them can be read
or none, and the schema holds the same: a declaration may refer to a later one.
-/

set_option autoImplicit false

namespace SchemaAtlas.Fluent

open Script

variable {R : Type}

theorem candidates_isNamed {config : Config R} {script : Module} {registry : Registry R}
    {candidate : Relationship} (member : candidate ∈ candidates config script registry) :
    candidate.IsNamed := by
  rcases List.mem_append.mp member with found | referenced
  · exact declared_isNamed found
  · exact Relationship.isNamed_of_mem_ofReferences referenced

theorem candidates_perm (config : Config R) {declarations others : List Declaration}
    (perm : declarations.Perm others) {registry again : Registry R}
    (rearranged : registry.Rearranged again) :
    (candidates config { declarations } registry).Perm
      (candidates config { declarations := others } again) :=
  (perm.flatMap fun _ _ => .refl _).append rearranged.ofReferences

variable [Coordinate R]

theorem collect_perm (config : Config R) (draws draws' : Nat → R) {surroundings other : Surroundings}
    (agrees : surroundings.Agrees other) {declarations others : List Declaration}
    (perm : declarations.Perm others) (distinct : (declarations.map (·.name)).Nodup)
    {registry : Registry R}
    (collected : (collect config draws surroundings { declarations }).outcome = .ok registry) :
    ∃ again, (collect config draws' other { declarations := others }).outcome = .ok again ∧
      registry.Rearranged again := by
  have apart {declarations : List Declaration} (distinct : (declarations.map (·.name)).Nodup) :
      ((Module.exported { declarations }).map (·.name)).Nodup :=
    distinct.sublist (List.filter_sublist.map _)
  have exported : (Module.exported { declarations }).Perm
      (Module.exported { declarations := others }) :=
    perm.filter _
  have first := collect_outcome config draws surroundings (apart distinct)
  rw [collected] at first
  obtain ⟨found, mapped, same⟩ := map_eq_ok.mp first.symm
  obtain ⟨contents, pending⟩ := Prod.mk.inj same
  obtain ⟨moved, mapped', perm'⟩ := mapM_perm exported mapped
  have second := collect_outcome config draws' other
    (apart ((perm.map (·.name)).nodup_iff.mp distinct))
  rw [← agrees.ownTable?, mapped'] at second
  obtain ⟨again, collected', same'⟩ := map_eq_ok.mp second
  obtain ⟨contents', pending'⟩ := Prod.mk.inj same'
  have tables := perm'.filterMap id
  have known (key : String) : key ∈ (found.filterMap id).map (·.id) ↔
      key ∈ (moved.filterMap id).map (·.id) :=
    (tables.map (·.id)).mem_iff
  refine ⟨again, collected', ?_, ?_⟩
  · rw [← contents, contents']
    exact tables
  · rw [← pending, pending', ownIndex?_congr _ known]
    exact perm.filterMap _

/-- Declarations that can be read can be read in any order. -/
theorem schemaOf_perm (config : Config R) (draws draws' : Nat → R)
    {declarations others : List Declaration} (perm : declarations.Perm others)
    (distinct : (declarations.map (·.name)).Nodup) {schema : Schema R}
    (read : (schemaOf config draws { declarations }).outcome = .ok schema) :
    ∃ other, (schemaOf config draws' { declarations := others }).outcome = .ok other ∧
      schema.SameContents other := by
  obtain ⟨registry, collected, strict, some, rfl⟩ := schemaOf_eq_ok.mp read
  have agrees := Surroundings.ofDeclarations_agrees config.drizzleKeywords perm distinct
  obtain ⟨again, collected', rearranged⟩ :=
    collect_perm config draws draws' agrees perm distinct collected
  have moved := candidates_perm config perm rearranged
  have known (id : String) : id ∈ registry.tableIds ↔ id ∈ again.tableIds :=
    rearranged.tableIds.mem_iff
  have same : (assemble config { declarations } registry).SameContents
      (assemble config { declarations := others } again) :=
    { tables := rearranged.merged
      relationships := Relationship.admitted_perm known moved (fun _ => candidates_isNamed) _
      enums := Surroundings.enums_perm config.drizzleKeywords perm }
  refine ⟨_, schemaOf_eq_ok.mpr ⟨again, collected', ?_, same.isEmpty ▸ some, rfl⟩, same⟩
  intro failing candidate member
  rw [← Relationship.joins_congr known]
  exact strict failing candidate (moved.mem_iff.mpr member)

/-- The order of declarations with different names does not matter: the script cannot be read in
either order, or the schemas hold the same. -/
theorem schemaOf_any_order (config : Config R) (draws draws' : Nat → R)
    {declarations others : List Declaration} (perm : declarations.Perm others)
    (distinct : (declarations.map (·.name)).Nodup) :
    (∃ fault fault',
      (schemaOf config draws { declarations }).outcome = .error fault ∧
        (schemaOf config draws' { declarations := others }).outcome = .error fault') ∨
      ∃ schema other,
        (schemaOf config draws { declarations }).outcome = .ok schema ∧
          (schemaOf config draws' { declarations := others }).outcome = .ok other ∧
          schema.SameContents other := by
  cases first : (schemaOf config draws { declarations }).outcome with
  | ok schema =>
    obtain ⟨other, second, same⟩ := schemaOf_perm config draws draws' perm distinct first
    exact .inr ⟨schema, other, rfl, second, same⟩
  | error fault =>
    cases second : (schemaOf config draws' { declarations := others }).outcome with
    | error fault' => exact .inl ⟨fault, fault', rfl, rfl⟩
    | ok other =>
      have apart := (perm.map (·.name)).nodup_iff.mp distinct
      obtain ⟨schema, again, -⟩ := schemaOf_perm config draws' draws perm.symm apart second
      rw [first] at again
      cases again

/-- Two tables, and behind them what they use: a creator, a group of columns and an enumeration. An
index and relationships of the first table stand in front of it. -/
def blog : List Declaration :=
  [{ name := "byAuthor"
     init := some (.call (.member (.call (.identifier "index") [.string "by_author"]) "on")
       [.member (.identifier "posts") "authorId"]) },
   { name := "postRelations"
     init := some (.call (.identifier "relations") [.identifier "posts", .arrow ["one"] (.object
       [.property "author" (.call (.identifier "one") [.identifier "users", .object
         [.property "fields" (.array [.member (.identifier "posts") "authorId"]),
          .property "references" (.array [.member (.identifier "users") "id"])]])])]) },
   { name := "posts"
     init := some (.call (.identifier "createTable") [.string "posts", .object
       [.property "id" (.call (.member (.call (.identifier "serial") [.string "id"]) "primaryKey") []),
        .property "authorId" (.call (.identifier "integer") [.string "author_id"]),
        .property "state" (.call (.identifier "state") [.string "state"]),
        .spread (.identifier "stamps")]])
     exported := true },
   { name := "users"
     init := some (.call (.identifier "createTable") [.string "users", .object
       [.property "id" (.call (.identifier "serial") [.string "id"]),
        .spread (.identifier "stamps")]])
     exported := true },
   { name := "state"
     init := some (.call (.identifier "pgEnum")
       [.string "state", .array [.string "draft", .string "sent"]]) },
   { name := "stamps"
     init := some (.object
       [.property "createdAt" (.call (.identifier "timestamp") [.string "created_at"])]) },
   { name := "createTable"
     init := some (.call (.identifier "pgTableCreator") [.arrow ["name"] (.identifier "name")]) }]

theorem schemaOf_any_order_blog : ∃ schema other : Schema Int,
    (schemaOf Config.default (fun _ => 0) { declarations := blog }).outcome = .ok schema ∧
      (schemaOf Config.default (fun _ => 1) { declarations := blog.reverse }).outcome = .ok other ∧
      schema.SameContents other ∧
      schema.stats = { tables := 2, relationships := 1, columns := 6, enums := 1, indexes := 1 } := by
  have perm : blog.Perm blog.reverse := blog.reverse_perm.symm
  have read : (schemaOf (Config.default : Config Int) (fun _ => 0)
      { declarations := blog }).outcome.toOption.map Schema.stats =
        some { tables := 2, relationships := 1, columns := 6, enums := 1, indexes := 1 } := by
    decide +kernel
  obtain ⟨fault, -, failed, -⟩ | ⟨schema, other, first, second, same⟩ :=
    schemaOf_any_order (Config.default : Config Int) (fun _ => 0) (fun _ => 1) perm (by decide)
  · rw [failed] at read
    cases read
  · rw [first] at read
    exact ⟨schema, other, first, second, same, Option.some.inj read⟩

end SchemaAtlas.Fluent
