import SchemaAtlas.Proofs.Blocks.Indexes

/-!
Arguments of attributes, with and without a key. For the attributes of indexes both are read alike;
the name of a table is read with its key.
-/

set_option autoImplicit false

namespace SchemaAtlas.Blocks

open Text

section Marks

variable {keywords : PrismaKeywords} {model : String}

namespace Written.Attribute.HasArgument

variable {attr : Attribute} {arg : List Char}

/-- For an attribute of an index it does not matter whether its fields are named. -/
theorem add_keyed (given : attr.HasArgument arg) (apart : attr.name ≠ keywords.mapAttribute)
    (marks : TableMarks) :
    marks.add keywords model (attr.keyed "fields").read = marks.add keywords model attr.read := by
  have word : IsWordText "fields".toList := by decide
  have solid : String.ofList arg ≠ "" := by simpa using given.isArgument.held
  have name : (attr.keyed "fields").read.name = attr.name := read_name _
  have args : (attr.keyed "fields").read.args =
      [String.ofList ("fields".toList ++ ':' :: ' ' :: arg)] := by
    rw [given.read_keyed word]
  have args' : attr.read.args = [String.ofList arg] := by
    rw [given.read_eq]
  have fields : TableMarks.nonEmpty? ((attr.keyed "fields").read.named? "fields") =
      some (String.ofList arg) := by
    rw [given.named?_keyed word, if_pos rfl]
    simp [TableMarks.nonEmpty?, solid]
  have index (count : Nat) : TableMarks.indexName model count (attr.keyed "fields").read =
      TableMarks.indexName model count attr.read := by
    rw [TableMarks.indexName, TableMarks.indexName, given.named?_keyed word, given.named?_keyed word,
      given.named?_read, given.named?_read, name, read_name]
    rfl
  simp only [TableMarks.add, args, args', name, read_name, apart, if_false, fields,
    given.named?_read, index]
  rfl

end Written.Attribute.HasArgument

theorem unquote_quotedText (content : List Char) : unquote (quotedText content) = content := by
  have trimmed : IsTrimmed (quotedText content) := isTrimmed_between (by decide) (by decide) content
  have last : (quotedText content).getLast? = some '"' := by
    rw [quotedText, ← List.cons_append, List.getLast?_concat]
  simp only [unquote, trim_eq_self trimmed, last]
  simp [quotedText, show isQuote '"' = true by rfl]

/-- Quotes behind a key stay. -/
theorem unquote_behind_key {key arg : List Char} (word : IsWordText key) (given : IsArgument arg) :
    unquote (key ++ ':' :: ' ' :: arg) = key ++ ':' :: ' ' :: arg := by
  obtain ⟨c, key, rfl⟩ := List.exists_cons_of_ne_nil word.1
  have outside : isQuote c = false := isQuote_of_isPlain (isPlain_of_isWord (word.2 c (.head _)))
  rw [unquote, trim_eq_self (given.behind_key word).trimmed]
  simp only [List.cons_append, List.head?_cons]
  split
  next first last begins _ =>
    cases begins
    simp [outside]
  next => rfl

namespace TableMarks

/-- Among some attributes there is one that names the table. -/
def Names (keywords : PrismaKeywords) (attributes : List Attribute) : Prop :=
  ∃ attr ∈ attributes, attr.name = keywords.mapAttribute ∧ attr.args ≠ []

instance (attributes : List Attribute) : Decidable (Names keywords attributes) :=
  inferInstanceAs (Decidable (∃ attr ∈ attributes, _))

theorem add_named (marks : TableMarks) (name : String) (attr : Attribute) :
    add keywords model { marks with name } attr =
      if attr.name = keywords.mapAttribute ∧ attr.args ≠ [] then add keywords model marks attr
      else { add keywords model marks attr with name } := by
  rw [add_eq, add_eq]
  by_cases names : attr.name = keywords.mapAttribute ∧ attr.args ≠ []
  next =>
    have given : attr.tableName? keywords ≠ none := fun none =>
      Attribute.tableName?_eq_none.mp none names
    obtain ⟨first, found⟩ := Option.ne_none_iff_exists'.mp given
    rw [if_pos names, found]
    rfl
  next =>
    rw [if_neg names, Attribute.tableName?_eq_none.mpr names]
    rfl

/-- The name that a table has so far stays unless an attribute gives it another one. -/
theorem foldl_add_named (attributes : List Attribute) (marks : TableMarks) (name : String) :
    attributes.foldl (add keywords model) { marks with name } =
      if Names keywords attributes then attributes.foldl (add keywords model) marks
      else { attributes.foldl (add keywords model) marks with name } := by
  induction attributes generalizing marks with
  | nil => simp [Names]
  | cons attr attributes ih =>
    rw [List.foldl_cons, List.foldl_cons, add_named]
    -- An attribute that names the table overwrites the name; any other one leaves it alone.
    by_cases here : attr.name = keywords.mapAttribute ∧ attr.args ≠ []
    · rw [if_pos here, if_pos ⟨attr, .head _, here⟩]
    · have same : Names keywords (attr :: attributes) ↔ Names keywords attributes := by
        simp [Names, here]
      rw [if_neg here, ih]
      simp only [same]

end TableMarks

namespace Model

theorem marks_keyed {attr : Written.Attribute} {arg : List Char} (given : attr.HasArgument arg)
    (apart : attr.name ≠ keywords.mapAttribute) (model : Model) (before behind : List Attribute) :
    (model.withAttribute before behind (attr.keyed "fields").read).marks keywords =
      (model.withAttribute before behind attr.read).marks keywords := by
  simp only [marks, withAttribute, List.foldl_append, List.foldl_cons, given.add_keyed apart]

/-- The name that an attribute gives to a table stays unless an attribute behind it gives another. -/
theorem marks_named {attr : Attribute} (named : attr.name = keywords.mapAttribute) {first : String}
    {others : List String} (args : attr.args = first :: others) (model : Model)
    (before behind : List Attribute) :
    (model.withAttribute before behind attr).marks keywords =
      let marks := (before ++ behind).foldl (TableMarks.add keywords model.name) { name := model.name }
      if TableMarks.Names keywords behind then marks
      else { marks with name := String.ofList (unquote first.toList) } := by
  have here (marks : TableMarks) : TableMarks.add keywords model.name marks attr =
      { marks with name := String.ofList (unquote first.toList) } := by
    simp only [TableMarks.add, args, named, if_true]
  simp only [marks, withAttribute, List.foldl_append, List.foldl_cons, here,
    TableMarks.foldl_add_named]

end Model

end Marks

section Readings

open Written.Attribute

variable {R : Type} [Coordinate R] {config : Config R} {front inside : List Char}
  {earlier : List Block} {name : String} {attr : Written.Attribute} {arg : List Char}

/-- A text with an attribute of an index is read in the same way whether its fields are named. -/
theorem readSchema_keyed_fields (draws : Nat → R) (known : AreKeywords config.prismaKeywords)
    (place : InModel config.prismaKeywords front earlier name inside) (given : attr.HasArgument arg)
    (apart : attr.name ≠ config.prismaKeywords.mapAttribute) (back : List Char) :
    readSchema config draws (front ++ (attr.blockText ++ back)) =
      readSchema config draws (front ++ ((attr.keyed "fields").blockText ++ back)) := by
  have word : IsWordText "fields".toList := by decide
  rcases readSchema_insert draws known place given.isCall (given.isCall_keyed word)
    (given.sameEnd word) back with failed | ⟨around, alike⟩
  next => exact (failed.imp fun _ _ _ _ (none : False) => none.elim).eq
  next =>
    -- The marks of the model are the same, so its twin has even the same name.
    have marks := Model.marks_keyed given apart around.model around.before around.behind
    have twins : (around.modelWith attr).Twins config.prismaKeywords
        (around.modelWith (attr.keyed "fields")) :=
      ⟨rfl, rfl, congrArg TableMarks.indexes marks.symm, congrArg TableMarks.compositeKey marks.symm⟩
    refine ((alike twins).imp fun schema other _ _ pair => ?_).eq
    split at pair
    next => exact pair
    next => exact pair.eq (congrArg TableMarks.name marks.symm)

/-- A text with an attribute that names the table is read in the same way with a key in front of the
name, but for the name of that table, unless the attribute has no effect. -/
theorem readSchema_keyed_map (draws : Nat → R) (known : AreKeywords config.prismaKeywords)
    (place : InModel config.prismaKeywords front earlier name inside) (given : attr.HasArgument arg)
    (named : attr.name = config.prismaKeywords.mapAttribute) {key : String}
    (word : IsWordText key.toList) (back : List Char) :
    Journaled.Alike
      (fun schema other =>
        ∃ around : Surroundings config.prismaKeywords.modelKeyword (stripComments front) earlier name
            inside (stripComments back),
          if TableMarks.Names config.prismaKeywords around.behind ∨
              name ∈ around.later.map (·.name) then schema = other
          else schema.DifferInName name (String.ofList (unquote arg))
            (String.ofList (key.toList ++ ':' :: ' ' :: arg)) other)
      (readSchema config draws (front ++ (attr.blockText ++ back)))
      (readSchema config draws (front ++ ((attr.keyed key).blockText ++ back))) := by
  rcases readSchema_insert draws known place given.isCall (given.isCall_keyed word)
    (given.sameEnd word) back with failed | ⟨around, alike⟩
  next => exact failed.imp fun _ _ _ _ (none : False) => none.elim
  next =>
    have marks : (around.modelWith attr).marks config.prismaKeywords = _ :=
      Model.marks_named ((read_name attr).trans named) (by rw [given.read_eq]) around.model
        around.before around.behind
    have marks' : (around.modelWith (attr.keyed key)).marks config.prismaKeywords = _ :=
      Model.marks_named ((read_name (attr.keyed key)).trans named) (by rw [given.read_keyed word])
        around.model around.before around.behind
    simp only [String.toList_ofList, unquote_behind_key word given.isArgument] at marks marks'
    have twins : (around.modelWith attr).Twins config.prismaKeywords
        (around.modelWith (attr.keyed key)) := by
      refine ⟨rfl, rfl, ?_, ?_⟩ <;> rw [marks, marks'] <;> split <;> rfl
    refine (alike twins).imp fun schema other _ _ pair => ⟨around, ?_⟩
    rw [marks, marks'] at pair
    by_cases replaced : name ∈ around.later.map (·.name)
    · rw [if_pos replaced] at pair
      rwa [if_pos (.inr replaced)]
    · rw [if_neg replaced] at pair
      by_cases named' : TableMarks.Names config.prismaKeywords around.behind
      · rw [if_pos named', if_pos named'] at pair
        rw [if_pos (.inl named')]
        exact pair.eq rfl
      · rw [if_neg named', if_neg named'] at pair
        rwa [if_neg (not_or.mpr ⟨named', replaced⟩)]

/-- On every line of a model a list of fields is read alike with and without its key: the schema, the
fault and all that is said are the same, and the table lists the fields unless the model is declared
again. The name of a table is not: the key is read as a part of it, quotes included, and that is seen
in the schema exactly if no other attribute behind it names the table and the model is not declared
again. -/
theorem named_arguments_read_alike_iff (config : Config R) (keywords : config.prismaKeywords = {})
    (draws : Nat → R) (place : InModel {} front earlier name inside) (back : List Char) :
    (∀ kind ∈ ["index", "unique", "id"],
      (∀ list : String, Written.IsInline list.toList → '\n' ∉ list.toList →
        readSchema config draws (front ++ ((listing kind list).blockText ++ back)) =
          readSchema config draws
            (front ++ (((listing kind list).keyed "fields").blockText ++ back))) ∧
      ∀ names ≠ [], (∀ column ∈ names, IsWordText column.toList) → ∀ schema : Schema R,
        let attr := listing kind (joinWith ", " names)
        (readSchema config draws (front ++ (attr.blockText ++ back))).outcome = .ok schema →
          ∃ line last later,
            blocks "model" (stripComments (front ++ (attr.blockText ++ back))) =
              { blocks := earlier ++
                  { name, body := inside ++ (attr.blockText ++ last), line } :: later } ∧
            (name ∉ later.map (·.name) →
              ∃ table ∈ schema.tables, table.id = name ∧ table.Lists {} kind names)) ∧
    ∀ content : String, IsContent content.toList →
      Journaled.Alike
        (fun schema other => ∃ line last later behind,
          blocks "model" (stripComments (front ++ ((quoting "map" content).blockText ++ back))) =
            { blocks := earlier ++
                { name, body := inside ++ ((quoting "map" content).blockText ++ last), line } ::
                  later } ∧
          Model.attributesBehind name last = .ok behind ∧
          if TableMarks.Names {} behind ∨ name ∈ later.map (·.name) then schema = other
          else schema.DifferInName name content ("name: \"" ++ content ++ "\"") other)
        (readSchema config draws (front ++ ((quoting "map" content).blockText ++ back)))
        (readSchema config draws
          (front ++ (((quoting "map" content).keyed "name").blockText ++ back))) := by
  have known : AreKeywords config.prismaKeywords := keywords ▸ areKeywords_default
  have here : InModel config.prismaKeywords front earlier name inside := keywords ▸ place
  have each : ∀ kind ∈ ["index", "unique", "id"], kind ≠ "" ∧
      (∀ c ∈ kind.toList, Blocks.Attribute.isNameChar c = true) ∧
      kind ≠ config.prismaKeywords.mapAttribute ∧ kind ∈ config.prismaKeywords.indexAttributes := by
    rw [keywords]
    decide
  constructor
  next =>
    intro kind member
    obtain ⟨named, letters, apart, listed⟩ := each kind member
    refine ⟨fun list inline unbroken => readSchema_keyed_fields draws known here
      (hasArgument_listing named letters inline unbroken) apart back, ?_⟩
    intro names some words schema attr read
    obtain ⟨inline, unbroken⟩ := inline_joinWith words
    have given : attr.HasArgument ('[' :: (joinWith ", " names).toList ++ [']']) :=
      hasArgument_listing named letters inline unbroken
    have columns := listNames_joinWith words
    obtain ⟨around, made⟩ := makes_of_insert known here given.isCall read
    refine ⟨around.line, around.last, around.later, ?_, fun last => ?_⟩
    · have keyword : "model" = config.prismaKeywords.modelKeyword := by rw [keywords]
      rw [keyword, given.isCall.stripComments_blockText place.code]
      exact around.scan attr given.isCall
    · obtain ⟨table, present, models, enums, makes⟩ := made last
      have lists := Model.lists_marks given apart listed (by rwa [columns]) around.model around.before
        around.behind
      rw [columns] at lists
      exact ⟨table, present, makes.id.trans (around.name_modelWith given.isCall),
        keywords ▸ makes.lists lists⟩
  next =>
    intro content plain
    have given : (quoting "map" content).HasArgument (quotedText content.toList) :=
      hasArgument_quoting (by decide) (by decide) plain
    have alike := readSchema_keyed_map draws known here given (by rw [keywords]; rfl)
      (show IsWordText "name".toList by decide) back
    have spelled : String.ofList ("name".toList ++ ':' :: ' ' :: quotedText content.toList) =
        "name: \"" ++ content ++ "\"" :=
      String.toList_inj.mp (by simp [quotedText])
    rw [keywords, unquote_quotedText, String.ofList_toList, spelled] at alike
    refine alike.imp fun schema other _ _ pair => ?_
    obtain ⟨around, pair⟩ := pair
    refine ⟨around.line, around.last, around.later, around.behind, ?_, around.listed, pair⟩
    rw [given.isCall.stripComments_blockText place.code]
    exact around.scan _ given.isCall

/-- A model up to the line behind its fields. -/
def openPost : List Char := "model Post \x7b\n  id Int @id\n  title String\n  ".toList

/-- The model with an attribute on that line. -/
def postWith (attr : Written.Attribute) : List Char :=
  openPost ++ (attr.blockText ++ "\n\x7d\n".toList)

theorem inModel_openPost :
    InModel {} openPost [] "Post" "\n  id Int @id\n  title String\n  ".toList where
  code := by decide
  opened := ⟨⟨[], openPost, rfl, rfl, by decide⟩, by decide, by decide⟩
  starts := ⟨"\n  id Int @id\n  title String\n".toList, "  ".toList, by decide, by decide,
    .inr ⟨"\n  id Int @id\n  title String".toList, by decide⟩⟩
  closed := by decide

/-- Nothing stands behind the attribute, and no model follows. -/
theorem eq_of_blocks_postWith {attr : Written.Attribute}
    (given : attr ∈ [listing "index" "id, title", quoting "map" "posts"]) {line : Nat}
    {last : List Char} {later : List Block}
    (scan : blocks "model" (stripComments (postWith attr)) =
      { blocks := [] ++ {
          name := "Post", line
          body := "\n  id Int @id\n  title String\n  ".toList ++ (attr.blockText ++ last) } ::
        later }) :
    last = ['\n'] ∧ later = [] := by
  have whole : ∀ attr ∈ [listing "index" "id, title", quoting "map" "posts"],
      blocks "model" (stripComments (postWith attr)) =
        { blocks := [{
            name := "Post", line := 1
            body := "\n  id Int @id\n  title String\n  ".toList ++ (attr.blockText ++ ['\n']) }] } := by
    decide +kernel
  obtain ⟨found, -⟩ := BlockScan.mk.inj ((whole attr given).symm.trans scan)
  obtain ⟨block, rest⟩ := List.cons.inj found
  obtain ⟨-, body, -⟩ := Block.mk.inj block
  exact ⟨(List.append_cancel_left (List.append_cancel_left body)).symm, rest.symm⟩

theorem named_arguments_read_alike_iff_openPost :
    InModel {} openPost [] "Post" "\n  id Int @id\n  title String\n  ".toList ∧
      readSchema (Config.default : Config Int) (fun _ => 0)
          (postWith (listing "index" "id, title")) =
        readSchema Config.default (fun _ => 0)
          (postWith ((listing "index" "id, title").keyed "fields")) ∧
      ∃ listed schema other : Schema Int,
        (readSchema Config.default (fun _ => 0)
          (postWith (listing "index" "id, title"))).outcome = .ok listed ∧
        (∃ table ∈ listed.tables, table.id = "Post" ∧ table.Lists {} "index" ["id", "title"]) ∧
        (readSchema Config.default (fun _ => 0) (postWith (quoting "map" "posts"))).outcome =
          .ok schema ∧
        (readSchema Config.default (fun _ => 0)
          (postWith ((quoting "map" "posts").keyed "name"))).outcome = .ok other ∧
        schema.DifferInName "Post" "posts" "name: \"posts\"" other := by
  have alike := named_arguments_read_alike_iff (Config.default : Config Int) rfl (fun _ => 0)
    inModel_openPost "\n\x7d\n".toList
  have calm : ∀ c ∈ "id, title".toList, Written.isCalm c = true := by decide
  obtain ⟨same, lists⟩ := alike.1 "index" (by decide)
  refine ⟨inModel_openPost, same "id, title" (.of_calm calm) (by decide), ?_⟩
  have each : ∀ attr ∈ [listing "index" "id, title", quoting "map" "posts",
      (quoting "map" "posts").keyed "name"],
      (readSchema (Config.default : Config Int) (fun _ => 0)
        (postWith attr)).outcome.toOption.isSome = true := by
    decide +kernel
  obtain ⟨listed, held⟩ := Option.isSome_iff_exists.mp (each _ (.head _))
  obtain ⟨schema, held'⟩ := Option.isSome_iff_exists.mp (each _ (.tail _ (.head _)))
  obtain ⟨other, held''⟩ := Option.isSome_iff_exists.mp (each _ (.tail _ (.tail _ (.head _))))
  have read := toOption_eq_some.mp held
  have read' := toOption_eq_some.mp held'
  have read'' := toOption_eq_some.mp held''
  refine ⟨listed, schema, other, read, ?_, read', read'', ?_⟩
  · obtain ⟨line, last, later, scan, made⟩ := lists ["id", "title"] (by decide) (by decide) listed read
    obtain ⟨-, rfl⟩ := eq_of_blocks_postWith (.head _) scan
    exact made List.not_mem_nil
  · have ends := (alike.2 "posts" (by decide)).outcome
    change Journaled.EndAlike _
      (readSchema Config.default _ (postWith (quoting "map" "posts"))).outcome
      (readSchema Config.default _ (postWith ((quoting "map" "posts").keyed "name"))).outcome at ends
    rw [read', read''] at ends
    cases ends with
    | value pair =>
      obtain ⟨line, last, later, behind, scan, found, differ⟩ := pair
      obtain ⟨rfl, rfl⟩ := eq_of_blocks_postWith (.tail _ (.head _)) scan
      have bare : Model.attributesBehind "Post" ['\n'] = .ok [] := by decide
      cases bare.symm.trans found
      exact differ

def users : List Char := "model User \x7b\n  id Int @id\n  @@map(\"users\")\n\x7d\n".toList

def keyedUsers : List Char :=
  "model User \x7b\n  id Int @id\n  @@map(name: \"users\")\n\x7d\n".toList

/-- A key in front of the name of a table becomes a part of that name. -/
theorem name_behind_key_is_kept :
    (readSchema (Config.default : Config Int) (fun _ => 0) users).outcome.toOption.map
          (·.tables.map fun table => (table.id, table.name)) = some [("User", "users")] ∧
      (readSchema (Config.default : Config Int) (fun _ => 0) keyedUsers).outcome.toOption.map
          (·.tables.map fun table => (table.id, table.name)) =
        some [("User", "name: \"users\"")] ∧
      "users" ≠ "name: \"users\"" :=
  ⟨by decide +kernel, by decide +kernel, by decide⟩

end Readings

end SchemaAtlas.Blocks
