import SchemaAtlas.Proofs.Blocks.Unnumbered

/-!
Two schemas in one text, the first of which ends with a closing brace. If neither names what the
other declares, each is read as if it stood alone.
-/

set_option autoImplicit false

namespace SchemaAtlas.Blocks

open Text

theorem readBlocks_eq {α : Type} (keyword : String) (read : Block → Except Fault α)
    (cs : List Char) : readBlocks keyword read cs =
      ((blocks keyword cs).blocks.mapM read).bind fun found =>
        match (blocks keyword cs).unclosed with
        | some block => .error (unterminated keyword block)
        | none => .ok found := by
  rw [readBlocks]
  cases (blocks keyword cs).blocks.mapM read with
  | error fault => rfl
  | ok found => cases (blocks keyword cs).unclosed <;> rfl

/-- What is read from closed blocks, seen in a way that does not show where they stand. -/
theorem readBlocks_map {α β : Type} {keyword : String} {read : Block → Except Fault α}
    {seen : α → β} (each : ∀ block, (read block).map seen = (read block.unnumbered).map seen)
    {cs : List Char} {listed : List Block}
    (scan : (blocks keyword cs).unnumbered = { blocks := listed }) :
    (readBlocks keyword read cs).map (List.map seen) =
      listed.mapM fun block => (read block).map seen := by
  obtain ⟨rfl, closed⟩ := BlockScan.mk.inj scan
  have chain : (blocks keyword cs).blocks.mapM
      ((fun block => (read block).map seen) ∘ Block.unnumbered) =
        ((blocks keyword cs).blocks.mapM read).map (List.map seen) :=
    mapM_eq_map _ fun block _ => (each block).symm
  rw [readBlocks_eq, Option.map_eq_none_iff.mp closed, List.mapM_map, chain]
  cases (blocks keyword cs).blocks.mapM read <;> rfl

/-- The enumeration that a block declares. -/
def enumerationOf (block : Block) : Enumeration :=
  { name := block.name, values := enumValues block.body }

/-- The models and enumerations of some blocks, without the lines they stand on. -/
def gather (models enums : List Block) : Except Fault (List Model × List Enumeration) := do
  let declared ← models.mapM fun block => (Model.ofBlock? block).map Model.unnumbered
  let kept ← (declared.foldlM addModel []).outcome
  return (kept, enums.map enumerationOf)

theorem gather_eq (models enums : List Block) : gather models enums =
    (models.mapM fun block => (Model.ofBlock? block).map Model.unnumbered).map fun declared =>
      (Keyed.merge (·.name) declared, enums.map enumerationOf) := by
  rw [gather]
  simp only [foldlM_addModel_outcome]
  cases models.mapM fun block => (Model.ofBlock? block).map Model.unnumbered <;> rfl

/-- Where the blocks of a text stand does not matter. -/
theorem collect_eq_gather {keywords : PrismaKeywords} {cs : List Char} {models enums : List Block}
    (declared : (blocks keywords.modelKeyword cs).unnumbered = { blocks := models })
    (listed : (blocks keywords.enumKeyword cs).unnumbered = { blocks := enums }) :
    (collect keywords cs).outcome.map (fun found => (found.1.map Model.unnumbered, found.2)) =
      gather models enums := by
  have first : readBlocks keywords.enumKeyword
      (fun block => .ok { name := block.name, values := enumValues block.body }) cs =
        .ok (enums.map enumerationOf) := by
    show readBlocks keywords.enumKeyword (fun block => .ok (enumerationOf block)) cs = _
    obtain ⟨rfl, closed⟩ := BlockScan.mk.inj listed
    have all : (blocks keywords.enumKeyword cs).blocks.mapM (fun block => .ok (enumerationOf block)) =
        (.ok ((blocks keywords.enumKeyword cs).blocks.map enumerationOf) : Except Fault _) :=
      List.mapM_pure
    rw [readBlocks_eq, Option.map_eq_none_iff.mp closed, all, List.map_map]
    rfl
  have second := readBlocks_map Model.ofBlock?_unnumbered declared
  rw [gather_eq, ← second, collect_outcome, first]
  cases readBlocks keywords.modelKeyword Model.ofBlock? cs with
  | error fault => rfl
  | ok found =>
    have kept : (Keyed.merge (·.name) found).map Model.unnumbered = Keyed.merge (·.name) _ :=
      Keyed.map_merge Model.unnumbered_name found
    simp only [bind, Except.bind, pure, Except.pure, Except.map, kept]

/-- Blocks that declare models of other names are gathered side by side. -/
theorem gather_append {models enums others listed : List Block}
    {found other : List Model × List Enumeration} (first : gather models enums = .ok found)
    (second : gather others listed = .ok other)
    (apart : (found.1.map (·.name)).Disjoint (other.1.map (·.name))) :
    gather (models ++ others) (enums ++ listed) = .ok (found.1 ++ other.1, found.2 ++ other.2) := by
  rw [gather_eq] at first second
  obtain ⟨declared, read, rfl⟩ := map_eq_ok.mp first
  obtain ⟨declared', read', rfl⟩ := map_eq_ok.mp second
  simp only [Keyed.keys_merge] at apart
  have disjoint : (declared.map (·.name)).Disjoint (declared'.map (·.name)) := fun _ here there =>
    apart (List.mem_eraseDups.mpr here) (List.mem_eraseDups.mpr there)
  rw [gather_eq, List.mapM_append, read, read', List.map_append]
  simp only [bind, Except.bind, pure, Except.pure, Except.map,
    Keyed.merge_append_of_disjoint disjoint]

theorem readBlocks_eq_ok {α : Type} {keyword : String} {read : Block → Except Fault α}
    {cs : List Char} {found : List α} : readBlocks keyword read cs = .ok found ↔
      (blocks keyword cs).blocks.mapM read = .ok found ∧ (blocks keyword cs).unclosed = none := by
  rw [readBlocks_eq]
  cases (blocks keyword cs).blocks.mapM read with
  | error fault => exact iff_of_false nofun nofun
  | ok listed =>
    cases (blocks keyword cs).unclosed with
    | some block => exact iff_of_false nofun nofun
    | none => exact (and_iff_left rfl).symm

theorem closed_of_readBlocks {α : Type} {keyword : String} {read : Block → Except Fault α}
    {cs : List Char} {found : List α} (done : readBlocks keyword read cs = .ok found) :
    (blocks keyword cs).unclosed = none :=
  (readBlocks_eq_ok.mp done).2

theorem closed_of_collect {keywords : PrismaKeywords} {cs : List Char}
    {found : List Model × List Enumeration} (collected : (collect keywords cs).outcome = .ok found) :
    (blocks keywords.modelKeyword cs).unclosed = none ∧
      (blocks keywords.enumKeyword cs).unclosed = none := by
  obtain ⟨listed, declared, read, -⟩ := collect_eq_ok.mp collected
  exact ⟨closed_of_readBlocks read, closed_of_readBlocks listed⟩

/-- What a text declares that ends closed, and what follows it on a new line. -/
theorem collect_append {keywords : PrismaKeywords}
    (models : IsWordText keywords.modelKeyword.toList)
    (enums : IsWordText keywords.enumKeyword.toList) {front gap rest : List Char}
    (blank : ∀ c ∈ gap, isBlank c = true) {found other : List Model × List Enumeration}
    (first : (collect keywords (front ++ '}' :: gap)).outcome = .ok found)
    (second : (collect keywords rest).outcome = .ok other)
    (apart : (found.1.map (·.name)).Disjoint (other.1.map (·.name))) :
    (collect keywords (front ++ '}' :: (gap ++ '\n' :: rest))).outcome.map
        (fun found => (found.1.map Model.unnumbered, found.2)) =
      .ok ((found.1 ++ other.1).map Model.unnumbered, found.2 ++ other.2) := by
  have scan {keyword : String} {cs : List Char} (closed : (blocks keyword cs).unclosed = none) :
      (blocks keyword cs).unnumbered = { blocks := (blocks keyword cs).unnumbered.blocks } := by
    simp [BlockScan.unnumbered, closed]
  have both {keyword : String} (word : IsWordText keyword.toList)
      (closed : (blocks keyword (front ++ '}' :: gap)).unclosed = none)
      (closed' : (blocks keyword rest).unclosed = none) :
      (blocks keyword (front ++ '}' :: (gap ++ '\n' :: rest))).unnumbered =
        { blocks := (blocks keyword (front ++ '}' :: gap)).unnumbered.blocks ++
            (blocks keyword rest).unnumbered.blocks } := by
    rw [blocks_append word blank closed, blocks_feed word, scan closed']
  obtain ⟨closed, closed'⟩ := closed_of_collect first
  obtain ⟨ends, ends'⟩ := closed_of_collect second
  have one := collect_eq_gather (scan closed) (scan closed')
  have two := collect_eq_gather (scan ends) (scan ends')
  rw [first] at one
  rw [second] at two
  rw [collect_eq_gather (both models closed ends) (both enums closed' ends'),
    gather_append one.symm two.symm (by simpa only [Model.map_name_unnumbered] using apart),
    List.map_append]

theorem keywordWithName?_append {keywords : List String}
    (words : ∀ keyword ∈ keywords, IsWordText keyword.toList) {before : Option Char}
    {cs : List Char} (found : (keywordWithName? keywords before cs).isSome = true)
    (rest : List Char) : (keywordWithName? keywords before (cs ++ rest)).isSome = true := by
  rw [keywordWithName?] at found ⊢
  split at found
  next edge =>
    obtain ⟨keyword, member, found⟩ := List.findSome?_isSome_iff.mp found
    obtain ⟨some, -⟩ := words keyword member
    obtain ⟨taken, found⟩ := Option.isSome_iff_exists.mp found
    simp only [Option.bind_eq_bind, Option.bind_eq_some_iff] at found
    obtain ⟨behind, literal, named, blanks, word⟩ := found
    have whole := eq_append_of_dropLiteral? literal
    have first : (cs ++ rest).head? = cs.head? := by
      rw [whole, List.append_assoc, List.head?_append_of_ne_nil _ some,
        List.head?_append_of_ne_nil _ some]
    have held : named ≠ [] := by
      rintro rfl
      cases word
    have taken : (takeWord? (named ++ rest)).isSome = true :=
      takeWord?_isSome_append (by rw [word]; rfl) rest
    rw [if_pos (first ▸ edge), List.findSome?_isSome_iff]
    refine ⟨keyword, member, ?_⟩
    rw [whole, List.append_assoc, dropLiteral?_append]
    simpa [dropBlanks?_append blanks held rest] using taken
  next => cases found

theorem looksLike_append {keywords : PrismaKeywords}
    (models : IsWordText keywords.modelKeyword.toList)
    (enums : IsWordText keywords.enumKeyword.toList) {cs : List Char}
    (looks : looksLike keywords cs = true) (rest : List Char) :
    looksLike keywords (cs ++ rest) = true := by
  have words : ∀ keyword ∈ [keywords.modelKeyword, keywords.enumKeyword],
      IsWordText keyword.toList := by simp [models, enums]
  have each (before : Option Char) (cs : List Char)
      (found : (keywordWithName? [keywords.modelKeyword, keywords.enumKeyword] before cs).isSome) :
      (keywordWithName? [keywords.modelKeyword, keywords.enumKeyword] before (cs ++ rest)).isSome :=
    keywordWithName?_append words found rest
  exact findMatch_append rest each looks

/-- The models and enumerations that a text declares, if they can be read. -/
def declarations (keywords : PrismaKeywords) (text : List Char) : List Model × List Enumeration :=
  match (collect keywords (stripComments text)).outcome with
  | .ok found => found
  | .error _ => ([], [])

def declaredNames (keywords : PrismaKeywords) (text : List Char) : List String :=
  let (models, enums) := declarations keywords text
  models.map (·.name) ++ enums.map (·.name)

/-- The types of all fields of the models of a text. -/
def fieldTypes (keywords : PrismaKeywords) (text : List Char) : List String :=
  (declarations keywords text).1.flatMap fun model => model.fields.map (·.type)

theorem readSchema_eq_ok {R : Type} [Coordinate R] {config : Config R} {draws : Nat → R}
    {text : List Char} {schema : Schema R} :
    (readSchema config draws text).outcome = .ok schema ↔
      looksLike config.prismaKeywords (stripComments text) = true ∧
        bracesBalanced (stripComments text) = true ∧ ∃ models enums,
          (collect config.prismaKeywords (stripComments text)).outcome = .ok (models, enums) ∧
            (schemaOf config draws models enums).outcome = .ok schema := by
  unfold readSchema
  simp only
  split
  next looks => simp_all
  next looks =>
    split
    next balanced => simp_all
    next balanced => simp_all [Journaled.bind_outcome_ok]

/-- A schema that is read is put together from models of different names. -/
theorem assemble_of_schemaOf {R : Type} [Coordinate R] {config : Config R} {draws : Nat → R}
    {keywords : PrismaKeywords} {cs : List Char} {models : List Model} {enums : List Enumeration}
    (collected : (collect keywords cs).outcome = .ok (models, enums)) {schema : Schema R}
    (read : (schemaOf config draws models enums).outcome = .ok schema) :
    ¬ (models.isEmpty && enums.isEmpty) = true ∧
      assemble config models enums = .ok schema.unplaced := by
  have distinct : Distinct models := (collect_keeps keywords cs).value _ collected
  have held : ¬ (models.isEmpty && enums.isEmpty) = true := by
    intro empty
    rw [schemaOf, if_pos empty] at read
    cases read
  exact ⟨held, by rw [← schemaOf_unplaced config draws distinct held, read]; rfl⟩

variable {R : Type} [Coordinate R]

theorem schemaOf_of_assemble (config : Config R) (draws : Nat → R) {models : List Model}
    (distinct : Distinct models) {enums : List Enumeration}
    (some : ¬ (models.isEmpty && enums.isEmpty) = true) {parts : Schema Unit}
    (assembled : assemble config models enums = .ok parts) :
    ∃ schema, (schemaOf config draws models enums).outcome = .ok schema ∧
      schema.unplaced = parts := by
  rw [← schemaOf_unplaced config draws distinct some] at assembled
  exact map_eq_ok.mp assembled

/-- Models that are joined from two collections of which neither names the other. -/
theorem schemaOf_joined (config : Config R) (draws : Nat → R) {joined models others : List Model}
    {enums listed : List Enumeration} (distinct : Distinct joined)
    (same : joined.map Model.unnumbered = (models ++ others).map Model.unnumbered)
    (held : ¬ (models.isEmpty && enums.isEmpty) = true)
    (forwards : ∀ model ∈ models, ∀ field ∈ model.fields,
      field.type ∉ others.map (·.name) ++ listed.map (·.name))
    (backwards : ∀ model ∈ others, ∀ field ∈ model.fields,
      field.type ∉ models.map (·.name) ++ enums.map (·.name)) {A B : Schema Unit}
    (left : assemble config models enums = .ok A) (right : assemble config others listed = .ok B) :
    ∃ schema, (schemaOf config draws joined (enums ++ listed)).outcome = .ok schema ∧
      schema.unplaced =
        { tables := A.tables ++ B.tables, relationships := A.relationships ++ B.relationships
          enums := A.enums ++ B.enums } := by
  have some : ¬ (joined.isEmpty && (enums ++ listed).isEmpty) = true := by
    intro empty
    simp only [Bool.and_eq_true, List.isEmpty_iff, List.append_eq_nil_iff] at empty
    obtain ⟨rfl, rfl, -⟩ := empty
    have bare : models = [] := (by simpa using same : models = [] ∧ others = []).1
    exact held (by simp [bare])
  have parts : assemble config joined (enums ++ listed) =
      assemble config (models ++ others) (enums ++ listed) := by
    rw [← assemble_unnumbered joined, ← assemble_unnumbered (models ++ others), same]
  rw [assemble_append (fun model member => .front (forwards model member))
    (fun model member => .back (backwards model member)) left right] at parts
  exact schemaOf_of_assemble config draws distinct some parts

/-- Reading is local: behind a schema that ends with a closing brace, another one that neither names
nor is named is read as if each stood alone. -/
theorem readSchema_append (config : Config R) (draws drawsA drawsB : Nat → R) {a b : List Char}
    {A B : Schema R} (keywords : config.prismaKeywords = {}) (ends : EndsClosed a)
    (first : (readSchema config drawsA a).outcome = .ok A)
    (second : (readSchema config drawsB b).outcome = .ok B)
    (names : (declaredNames {} a).Disjoint (declaredNames {} b))
    (forwards : (fieldTypes {} a).Disjoint (declaredNames {} b))
    (backwards : (fieldTypes {} b).Disjoint (declaredNames {} a)) :
    ∃ schema, (readSchema config draws (a ++ '\n' :: b)).outcome = .ok schema ∧
      schema.unplaced =
        { tables := A.unplaced.tables ++ B.unplaced.tables
          relationships := A.relationships ++ B.relationships
          enums := A.enums ++ B.enums } := by
  obtain ⟨looks, balanced, models, enums, collected, read⟩ := readSchema_eq_ok.mp first
  obtain ⟨-, balanced', others, listed, collected', read'⟩ := readSchema_eq_ok.mp second
  obtain ⟨held, left⟩ := assemble_of_schemaOf collected read
  obtain ⟨-, right⟩ := assemble_of_schemaOf collected' read'
  rw [keywords] at looks collected collected'
  simp only [declaredNames, fieldTypes, declarations, collected, collected'] at names forwards backwards
  obtain ⟨⟨front, gap, cleaned, blank⟩, closed, both⟩ := ends.stripComments
  have apart : (models.map (·.name)).Disjoint (others.map (·.name)) := fun name one other =>
    names (List.mem_append_left _ one) (List.mem_append_left _ other)
  rw [cleaned] at collected
  have gathered := collect_append (by decide) (by decide) blank collected collected' apart
  rw [← List.cons_append, ← List.append_assoc, ← cleaned, ← both] at gathered
  obtain ⟨⟨joined, all⟩, result, same⟩ := map_eq_ok.mp gathered
  obtain ⟨same, rfl⟩ := Prod.mk.inj same
  have distinct : Distinct joined := (collect_keeps _ _).value _ result
  obtain ⟨schema, assembled, parts⟩ := schemaOf_joined config draws distinct same held
    (fun model member field inside => forwards (List.mem_flatMap.mpr
      ⟨model, member, List.mem_map_of_mem inside⟩))
    (fun model member field inside => backwards (List.mem_flatMap.mpr
      ⟨model, member, List.mem_map_of_mem inside⟩)) left right
  refine ⟨schema, readSchema_eq_ok.mpr ⟨?_, ?_, joined, enums ++ listed, ?_, assembled⟩, parts⟩
  · rw [keywords, both]
    exact looksLike_append (by decide) (by decide) looks _
  · rw [both, bracesBalanced_behind balanced closed]
    exact balanced'
  · rw [keywords]
    exact result

/-- Two models with a brace in a comment, and an enumeration with a model that uses it. -/
def staff : List Char :=
  "model User \x7b // not closed: \x7b\n id Int @id\n teamId Int\n team Team\n\x7d\n".toList ++
    "model Team \x7b\n id Int @id\n\x7d\n".toList

def grants : List Char :=
  "enum Role \x7b ADMIN \x7d model Grant \x7b\n id Int @id\n role Role\n\x7d".toList

theorem endsClosed_staff : EndsClosed staff :=
  ⟨staff.dropLast.dropLast, ['\n'], by decide, by decide, by decide⟩

theorem readSchema_append_grants : ∃ A B schema : Schema Int,
    (readSchema Config.default (fun _ => 0) staff).outcome = .ok A ∧
      (readSchema Config.default (fun _ => 0) grants).outcome = .ok B ∧
      (readSchema Config.default (fun _ => 0) (staff ++ '\n' :: grants)).outcome = .ok schema ∧
      schema.unplaced =
        { tables := A.unplaced.tables ++ B.unplaced.tables
          relationships := A.relationships ++ B.relationships
          enums := A.enums ++ B.enums } := by
  have read : ((readSchema (Config.default : Config Int) (fun _ => 0) staff).outcome.toOption.isSome ∧
      (readSchema (Config.default : Config Int) (fun _ => 0) grants).outcome.toOption.isSome) ∧
        declaredNames {} staff = ["User", "Team"] ∧ declaredNames {} grants = ["Grant", "Role"] ∧
        fieldTypes {} staff = ["Int", "Int", "Team", "Int"] ∧
        fieldTypes {} grants = ["Int", "Role"] := by
    decide +kernel
  obtain ⟨⟨first, second⟩, names, names', types, types'⟩ := read
  cases left : (readSchema (Config.default : Config Int) (fun _ => 0) staff).outcome with
  | error fault =>
    rw [left] at first
    cases first
  | ok A =>
    cases right : (readSchema (Config.default : Config Int) (fun _ => 0) grants).outcome with
    | error fault =>
      rw [right] at second
      cases second
    | ok B =>
      obtain ⟨schema, joined, parts⟩ := readSchema_append (Config.default : Config Int)
        (fun _ => 0) (fun _ => 0) (fun _ => 0) rfl endsClosed_staff left right
        (by rw [names, names']; simp) (by rw [types, names']; simp) (by rw [types', names]; simp)
      exact ⟨A, B, schema, rfl, rfl, joined, parts⟩

end SchemaAtlas.Blocks
