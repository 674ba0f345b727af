import SchemaAtlas.Proofs.Blocks.Attributes
import SchemaAtlas.Proofs.Blocks.Columns
import SchemaAtlas.Proofs.Blocks.Numbered
import SchemaAtlas.Proofs.Blocks.Quoted

/-!
String defaults. The string of an attribute `@default` is read as it stands, but a generator is
looked for in it as well, and where one is found it decides on the default and on the type.
-/

set_option autoImplicit false

namespace SchemaAtlas.Blocks

open Text

namespace Attribute

theorem eq_append_of_here? {cs behind : List Char} {found : Except Fault Attribute}
    (matched : here? cs = some (found, behind)) : ∃ front, front ≠ [] ∧ cs = front ++ behind := by
  obtain ⟨⟨name, rest⟩, head, left⟩ := Option.bind_eq_some_iff.mp matched
  have within : behind <:+ rest := by
    simp only at left
    split at left
    next inner =>
      split at left
      next raw tail group =>
        cases left
        obtain ⟨closer, -, split⟩ := eq_append_of_closeGroup? group
        exact ⟨'(' :: raw ++ [closer], by simp [split]⟩
      next => cases left; exact List.suffix_refl _
    next => cases left; exact List.suffix_refl _
  obtain ⟨mark, rfl⟩ := eq_append_of_head? head
  obtain ⟨front, rfl⟩ := within
  exact ⟨'@' :: mark ++ front, by simp, by simp⟩

/-- An attribute ends in front of the next one, unless its parentheses are still open there. -/
theorem here?_append {cs : List Char} (held : cs ≠ []) (unmarked : cs ≠ ['@'])
    (read : ∀ found behind, here? cs = some (found, behind) → ∃ attr, found = .ok attr)
    (rest : List Char) : here? (cs ++ '@' :: rest) =
      (here? cs).map fun found => (found.1, found.2 ++ '@' :: rest) := by
  have name := head?_append (show isNameChar '@' = false by decide) (fun _ => ⟨held, unmarked⟩) rest
  cases head : head? cs with
  | none =>
    rw [head, Option.map_none] at name
    simp [here?, head, name]
  | some found =>
    obtain ⟨word, behind⟩ := found
    rw [head, Option.map_some] at name
    cases behind with
    | nil => simp [here?, head, name]
    | cons c inner =>
      by_cases round : c = '('
      next =>
        subst round
        cases group : closeGroup? '(' inner with
        | none =>
          -- Parentheses that stay open are an error, and `cs` was read without one.
          obtain ⟨attr, same⟩ := read (.error (unterminated word)) ('(' :: inner)
            (by simp [here?, head, group])
          cases same
        | some found =>
          have longer := closeGroup?_append group ('@' :: rest)
          simp [here?, head, name, group, longer]
      next => simp [here?, head, name, round]

/-- The attributes in front of another one, that one, and those behind it. -/
theorem listOf?_append {front : List Char} {attributes : List Attribute}
    (read : listOf? front = .ok attributes) (unmarked : front.getLast? ≠ some '@')
    {text back : List Char} {attr : Attribute}
    (found : here? ('@' :: text ++ back) = some (.ok attr, back)) :
    listOf? (front ++ ('@' :: text ++ back)) =
      (listOf? back).map fun others => attributes ++ attr :: others := by
  have good : ∀ a ∈ matchesFrom (fun _ => here?) 0 none front, ∃ attr, a = .ok attr := by
    intro a member
    obtain ⟨attr, -, same⟩ := exists_of_forall₂ (forall₂_of_mapM read).flip member
    exact ⟨attr, same⟩
  have single (cs : List Char) (suffix : cs <:+ front) : cs ≠ ['@'] := by
    rintro rfl
    obtain ⟨lead, rfl⟩ := suffix
    simp at unmarked
  -- What is found in front ends there, so it is found whatever follows.
  have apart : matchesFrom (fun _ => here?) 0 none (front ++ ('@' :: text ++ back)) =
      matchesFrom (fun _ => here?) 0 none front ++
        matchesFrom (fun _ => here?) 0 (front.getLast?.or none) ('@' :: text ++ back) :=
    matchesFrom_apart (fun _ _ _ _ found => eq_append_of_here? found)
      (fun _ cs held suffix closed => here?_append held (single cs suffix) closed _) none good
  have behind (before : Option Char) :
      matchesFrom (fun _ => here?) 0 before ('@' :: text ++ back) =
        .ok attr :: matchesFrom (fun _ => here?) 0 ('@' :: text).getLast? back :=
    matchesFrom_append (List.cons_ne_nil '@' text) found
  rw [listOf?, allMatches, apart, behind, List.mapM_append, List.mapM_cons,
    show (matchesFrom (fun _ => here?) 0 none front).mapM id = .ok attributes from read,
    matchesFrom_before 0 _ none back]
  change _ = (((matchesFrom (fun _ => here?) 0 none back).mapM id).map _)
  cases (matchesFrom (fun _ => here?) 0 none back).mapM id <;> rfl

end Attribute

namespace Field

/-- The name and the type of a field end in front of a character that neither holds. -/
theorem parts?_append {c : Char} (solid : isBlank c = false) (outside : isTypeChar c = false)
    (cs rest : List Char) : parts? (cs ++ c :: rest) =
      (parts? cs).map fun parts => (parts.1, parts.2.1, parts.2.2 ++ c :: rest) := by
  have unworded : isWord c = false := by
    simp only [isTypeChar, Bool.or_eq_false_iff] at outside
    exact outside.1.1.1
  rw [parts?, parts?, takeWord?, takeWord?, takeRun?_break rest unworded]
  cases takeRun? isWord cs with
  | none => rfl
  | some found =>
    obtain ⟨name, behind⟩ := found
    simp only [Option.map_some, Option.bind_eq_bind, Option.bind_some, dropBlanks?_break rest solid]
    cases dropBlanks? behind with
    | none => rfl
    | some behind =>
      simp only [Option.map_some, Option.bind_some, takeRun?_break rest outside]
      cases takeRun? isTypeChar behind <;> rfl

theorem suffix_of_parts? {cs name type rest : List Char}
    (parts : parts? cs = some (name, type, rest)) : rest <:+ cs := by
  simp only [parts?, Option.bind_eq_bind, Option.bind_eq_some_iff] at parts
  obtain ⟨⟨word, behind⟩, taken, second, dropped, ⟨run, last⟩, typed, same⟩ := parts
  cases same
  obtain ⟨rfl, -⟩ := eq_append_of_takeRun? taken
  obtain ⟨gap, -, -, rfl⟩ := eq_append_of_dropBlanks? dropped
  obtain ⟨rfl, -⟩ := eq_append_of_takeRun? typed
  exact (List.suffix_append _ _).trans ((List.suffix_append _ _).trans (List.suffix_append _ _))

end Field

def quotedText (content : List Char) : List Char := '"' :: (content ++ ['"'])

/-- A string default between the rest of a line. -/
def defaultLine (front content back : List Char) : List Char :=
  front ++ ('@' :: ("default(".toList ++ quotedText content ++ [')']) ++ back)

/-- A line with a string default: in front of the attribute stands a field line without a default. -/
structure StringDefault (front content : List Char) (field : Field) : Prop where
  declares : Field.ofLine? 0 front = .ok (some field)
  first : field.attribute? "default" = none
  unmarked : front.getLast? ≠ some '@'
  content : IsContent content

theorem isArgument_quotedText {content : List Char} (plain : IsContent content) :
    IsArgument (quotedText content) :=
  .string rfl plain.quotable

def defaultAttribute (content : List Char) : Attribute where
  name := "default"
  args := [String.ofList (quotedText content)]
  rawArgs := some (String.ofList (quotedText content))

/-- A field with a string default in front of some more attributes. -/
def Field.withDefault (field : Field) (content : List Char) (others : List Attribute)
    (number : Nat) : Field :=
  { field with
    attributes := field.attributes ++ defaultAttribute content :: others, line := number }

theorem here?_defaultAttribute {content : List Char} (plain : IsContent content)
    (back : List Char) :
    Attribute.here? ('@' :: ("default(".toList ++ quotedText content ++ [')']) ++ back) =
      some (.ok (defaultAttribute content), back) := by
  let written := Written.Attribute.quoting "default" (String.ofList content)
  have onLine : written.OnLine :=
    Written.Attribute.onLine_quoting (by decide) (by decide) (by rwa [String.toList_ofList])
  have closed : written.Closed :=
    ⟨onLine.named, onLine.name, fun args held => (onLine.args args held).1.nested⟩
  have text : written.text = '@' :: ("default(".toList ++ quotedText content ++ [')']) := by
    rw [Written.Attribute.text_quoting, String.toList_ofList]
    simp [quotedText]
  have args : written.args = some (String.ofList (quotedText content)) :=
    congrArg some (String.toList_inj.mp (by simp [quotedText]))
  have read : written.read = defaultAttribute content := by
    rw [Written.Attribute.read_eq, args, Option.elim_some, String.toList_ofList,
      (isArgument_quotedText plain).splitCommas_eq]
    rfl
  rw [← text, ← read]
  exact closed.here?_args rfl back

/-- The calls that are looked for in a default. -/
def generatorCalls : List String := ["uuid(", "cuid(", "now()", "autoincrement()"]

theorem contains_quotedText {call content : List Char} (held : call ≠ []) (unquoted : '"' ∉ call) :
    contains call (quotedText content) = true ↔ call <:+: content := by
  have none : ¬ call <:+: [] := by simpa using held
  rw [contains_iff, quotedText, ← List.nil_append ('"' :: _), infix_break unquoted,
    infix_break unquoted, or_iff_right none, or_iff_left none]

def MentionsGenerator (content : List Char) : Prop :=
  ∃ call ∈ generatorCalls, call.toList <:+: content

theorem contains_generator {call : String} (listed : call ∈ generatorCalls) (content : List Char) :
    contains call.toList (String.ofList (quotedText content)).toList = true ↔
      call.toList <:+: content := by
  have plain : ∀ call ∈ generatorCalls, call.toList ≠ [] ∧ '"' ∉ call.toList := by decide
  obtain ⟨held, unquoted⟩ := plain call listed
  rw [String.toList_ofList, contains_quotedText held unquoted]

theorem defaultOfArg_mentioned {content : List Char} (mentions : MentionsGenerator content) :
    Field.defaultOfArg {} (String.ofList (quotedText content)) ∈
      [Sentinel.uuid, Sentinel.now, Sentinel.autoincrement] := by
  obtain ⟨call, listed, inside⟩ := mentions
  have found := (contains_generator listed content).mpr inside
  unfold Field.defaultOfArg
  simp only
  split
  next => decide
  next first =>
    split
    next => decide
    next second =>
      split
      next => decide
      next third =>
        -- The call would have been found in one of the three places.
        simp only [List.any_cons, List.any_nil, Bool.or_false, Bool.or_eq_true, not_or] at first
        simp only [generatorCalls, List.mem_cons, List.not_mem_nil, or_false] at listed
        rcases listed with rfl | rfl | rfl | rfl
        · exact absurd found first.1
        · exact absurd found first.2
        · exact absurd found second
        · exact absurd found third

theorem defaultOfArg_quotedText {content : List Char} :
    Field.defaultOfArg {} (String.ofList (quotedText content)) = String.ofList (quotedText content) ↔
      ¬ MentionsGenerator content := by
  constructor
  next =>
    intro same mentions
    have sentinel := defaultOfArg_mentioned mentions
    rw [same] at sentinel
    have unquoted : ∀ text ∈ [Sentinel.uuid, Sentinel.now, Sentinel.autoincrement],
        text.toList.head? ≠ some '"' := by decide
    exact unquoted _ sentinel (by simp [quotedText])
  next =>
    intro plain
    have absent (call : String) (listed : call ∈ generatorCalls) :
        contains call.toList (String.ofList (quotedText content)).toList = false := by
      rw [Bool.eq_false_iff, ne_eq, contains_generator listed]
      exact fun inside => plain ⟨call, listed, inside⟩
    simp only [Field.defaultOfArg, List.any_cons, List.any_nil, absent "uuid(" (by decide),
      absent "cuid(" (by decide), absent "now()" (by decide),
      absent "autoincrement()" (by decide), Bool.or_self, Bool.false_eq_true, if_false]

namespace Field

variable {field : Field} {content : List Char} {others : List Attribute} {number : Nat}

theorem attribute?_withDefault {name : String} (other : name ≠ "default") :
    (field.withDefault content others number).attribute? name =
      (field.withDefault [] others 0).attribute? name := by
  have unnamed (content : List Char) : (defaultAttribute content).name ≠ name := other.symm
  simp [attribute?, withDefault, List.find?_append, unnamed]

theorem nativeType?_withDefault : (field.withDefault content others number).nativeType? {} =
    (field.withDefault [] others 0).nativeType? {} := by
  have unmarked (content : List Char) : dropLiteral?
      ({} : PrismaKeywords).nativeTypeMark.toList (defaultAttribute content).name.toList = none :=
    (by decide : dropLiteral? "db.".toList "default".toList = none)
  simp only [nativeType?, withDefault, List.findSome?_append, List.findSome?_cons, unmarked,
    Option.bind_eq_bind, Option.bind_none]

theorem defaultArg?_withDefault (first : field.attribute? "default" = none) :
    (field.withDefault content others number).attribute? "default" =
      some (defaultAttribute content) := by
  have none : field.attributes.find? (·.name = "default") = none := first
  simp [attribute?, withDefault, List.find?_append, none, defaultAttribute]

def typeText (types : TypeProvider) (enums : List String) (field : Field) : Except Fault String :=
  (field.columnType {} types enums).map fun type => if field.isArray then type ++ "[]" else type

/-- A key whose default holds the call that counts, and whose type has a serial one. -/
structure Counts (field : Field) (content : List Char) : Prop where
  mentions : "autoincrement()".toList <:+: content
  id : field.hasAttribute "id" = true
  native : field.nativeType? {} = none
  serial : field.type = "Int" ∨ field.type = "BigInt"

theorem serialType?_withDefault (first : field.attribute? "default" = none) :
    (field.withDefault content others number).serialType? {} =
      if (field.withDefault [] others 0).hasAttribute "id" &&
          contains "autoincrement()".toList (quotedText content) then
        ([("Int", "serial"), ("BigInt", "bigserial")].find? (·.1 = field.type)).map (·.2)
      else none := by
  have id : (field.withDefault content others number).hasAttribute "id" =
      (field.withDefault [] others 0).hasAttribute "id" :=
    congrArg Option.isSome (attribute?_withDefault (by decide))
  have arg : (field.withDefault content others number).defaultArg? {} =
      some (String.ofList (quotedText content)) := by
    rw [defaultArg?, defaultArg?_withDefault first]
    rfl
  have held : String.ofList (quotedText content) ≠ "" := by simp [quotedText]
  simp only [serialType?, id, arg, Option.any_some, String.toList_ofList, held, ne_eq,
    not_false_eq_true, true_and, Bool.decide_eq_true]
  rfl

theorem columnType_withDefault (first : field.attribute? "default" = none) (types : TypeProvider)
    (enums : List String) :
    (¬ (field.withDefault [] others 0).Counts content →
      (field.withDefault content others number).columnType {} types enums =
        (field.withDefault [] others 0).columnType {} types enums) ∧
    ((field.withDefault [] others 0).Counts content →
      (field.withDefault content others number).columnType {} types enums =
        .ok (if field.type = "Int" then "serial" else "bigserial")) := by
  have call : contains "autoincrement()".toList (quotedText content) = true ↔
      "autoincrement()".toList <:+: content :=
    contains_quotedText (by decide) (by decide)
  -- The empty string mentions no call, so the type without the string is never a serial one.
  have silent : (field.withDefault [] others 0).serialType? {} = none := by
    have absent : contains "autoincrement()".toList (quotedText []) = false := by decide
    rw [serialType?_withDefault first, absent, Bool.and_false]
    rfl
  have serial : (field.withDefault content others number).serialType? {} = _ :=
    serialType?_withDefault first
  constructor
  next =>
    intro uncounted
    simp only [columnType, nativeType?_withDefault, silent]
    cases native : (field.withDefault [] others 0).nativeType? {} with
    | some type => rfl
    | none =>
      have none : (field.withDefault content others number).serialType? {} = none := by
        rw [serial]
        split
        next counted =>
          rw [Bool.and_eq_true, call] at counted
          have untyped : ¬ (field.type = "Int" ∨ field.type = "BigInt") := fun typed =>
            uncounted ⟨counted.2, counted.1, native, typed⟩
          rw [not_or] at untyped
          simp [Ne.symm untyped.1, Ne.symm untyped.2]
        next => rfl
      rw [none]
      rfl
  next =>
    rintro ⟨mentions, id, native, typed⟩
    simp only [columnType, nativeType?_withDefault, native, serial, id, call.mpr mentions]
    rcases typed with same | same
    next =>
      have type : field.type = "Int" := same
      simp [type]
    next =>
      have type : field.type = "BigInt" := same
      simp [type]

end Field

namespace StringDefault

variable {front content : List Char} {field : Field}

/-- The field of the line is that of the front with some more attributes. -/
theorem ofLine?_eq (shape : StringDefault front content field) (back : List Char) (number : Nat) :
    Field.ofLine? number (defaultLine front content back) = (Attribute.listOf? back).map fun others =>
      some (field.withDefault content others number) := by
  obtain ⟨declares, -, unmarked, plain⟩ := shape
  unfold Field.ofLine? at declares
  cases parts : Field.parts? front with
  | none =>
    rw [parts] at declares
    cases declares
  | some found =>
    obtain ⟨name, type, rest⟩ := found
    rw [parts] at declares
    obtain ⟨attributes, read, same⟩ := bind_eq_ok.mp declares
    cases same
    have last : rest.getLast? ≠ some '@' := by
      obtain ⟨lead, rfl⟩ := Field.suffix_of_parts? parts
      intro mark
      exact unmarked (by rw [List.getLast?_append, mark, Option.some_or])
    have all := Attribute.listOf?_append read last (here?_defaultAttribute plain back)
    have longer := Field.parts?_append (c := '@') (by decide) (by decide) front
      (("default(".toList ++ quotedText content ++ [')']) ++ back)
    rw [parts, Option.map_some] at longer
    rw [defaultLine, Field.ofLine?, List.cons_append, longer]
    simp only
    rw [← List.cons_append, all]
    cases Attribute.listOf? back <;> rfl

/-- What the column of such a line is like. The default is the string as it is written, quotes
included, unless a generator occurs in it; the type is that of the same line with an empty string,
unless the string makes the field count. -/
structure Gives (types : TypeProvider) (enums : List String) (front content back : List Char)
    (field : Field) (column : Column) : Prop where
  name : column.name = field.name
  verbatim : column.defaultValue = some (String.ofList (quotedText content)) ↔
    ¬ MentionsGenerator content
  replaced : MentionsGenerator content → column.defaultValue ∈
    [some Sentinel.uuid, some Sentinel.now, some Sentinel.autoincrement]
  type : ∃ bare, Field.ofLine? 0 (defaultLine front [] back) = .ok (some bare) ∧
    (¬ bare.Counts content → bare.typeText types enums = .ok column.type) ∧
    (bare.Counts content → column.type = (if bare.type = "Int" then "serial" else "bigserial") ++
      (if bare.isArray then "[]" else ""))

theorem gives (shape : StringDefault front content field) {back : List Char} {number : Nat}
    {found : Field} (read : Field.ofLine? number (defaultLine front content back) = .ok (some found))
    {types : TypeProvider} {enums compositeKey : List String} {column : Column}
    (made : found.Makes {} types enums compositeKey column) :
    Gives types enums front content back field column := by
  rw [shape.ofLine?_eq] at read
  obtain ⟨others, behind, same⟩ := map_eq_ok.mp read
  cases same
  have bare : StringDefault front [] field :=
    { shape with content := by simp [IsContent] }
  have value : column.defaultValue =
      some (Field.defaultOfArg {} (String.ofList (quotedText content))) := by
    have held : (field.withDefault content others number).attribute? "default" = _ :=
      Field.defaultArg?_withDefault shape.first
    have named : ({} : PrismaKeywords).defaultAttribute = "default" := rfl
    rw [made.defaultValue, Field.defaultValue?, Field.hasAttribute, Field.defaultArg?, named, held]
    rfl
  refine ⟨made.name, ?_, ?_, field.withDefault [] others 0, ?_, ?_, ?_⟩
  · rw [value, Option.some.injEq, defaultOfArg_quotedText]
  · intro mentions
    rw [value]
    exact List.mem_map_of_mem (f := some) (defaultOfArg_mentioned mentions)
  · rw [bare.ofLine?_eq, behind]
    rfl
  · intro uncounted
    have typed := made.type
    rwa [(Field.columnType_withDefault shape.first types enums).1 uncounted] at typed
  · intro counted
    have typed := made.type
    rw [(Field.columnType_withDefault shape.first types enums).2 counted] at typed
    rw [← Except.ok.inj typed]
    cases array : field.isArray <;> simp [Field.withDefault, array]

end StringDefault

section Lines

/-- Whether a line declares a field whose type is none of some models. -/
def declaresScalar (models : List String) (line : List Char) : Bool :=
  (Field.parts? line).any fun parts => String.ofList (Field.baseType parts.2.1) ∉ models

def scalarLines (models : List String) (body : List Char) : List (List Char) :=
  ((lines body).map trim).filter (declaresScalar models)

theorem Field.parts_of_ofLine? {number : Nat} {line : List Char} {field : Field}
    (read : ofLine? number line = .ok (some field)) :
    ∃ name type rest, parts? line = some (name, type, rest) ∧
      field.type = String.ofList (baseType type) := by
  unfold ofLine? at read
  split at read
  next => cases read
  next name type rest parts =>
    obtain ⟨attributes, -, same⟩ := bind_eq_ok.mp read
    cases same
    exact ⟨name, type, rest, parts, rfl⟩

namespace Model

theorem Item.fields_of_ofLine? {number : Nat} {line : List Char} {item : Item}
    (read : ofLine? number line = .ok item) :
    (item.fields = [] ∧ Field.parts? (trim line) = none) ∨
      ∃ field, item.fields = [field] ∧ Field.ofLine? number (trim line) = .ok (some field) := by
  unfold ofLine? at read
  simp only at read
  split at read
  next empty =>
    cases read
    have nothing : trim line = [] := by simpa using empty
    exact .inl ⟨rfl, by rw [nothing]; rfl⟩
  next =>
    split at read
    next marked =>
      obtain ⟨attributes, -, same⟩ := map_eq_ok.mp read
      cases same
      obtain ⟨behind, whole⟩ := beginsWith_iff.mp marked
      have unnamed : takeWord? (trim line) = none := by
        rw [← whole]
        exact takeRun?_eq_none (by rintro _ ⟨⟩; decide)
      exact .inl ⟨rfl, by rw [Field.parts?, unnamed]; rfl⟩
    next =>
      obtain ⟨declared, found, same⟩ := bind_eq_ok.mp read
      cases declared with
      | some field =>
        cases same
        exact .inr ⟨field, rfl, found⟩
      | none =>
        cases same
        unfold Field.ofLine? at found
        split at found
        next parts => exact .inl ⟨rfl, parts⟩
        next =>
          obtain ⟨_, -, same⟩ := bind_eq_ok.mp found
          cases same

theorem scalars_of_ofLines? {name : String} {start number : Nat} {rest : List (List Char)}
    {model : Model} (read : ofLines? name start number rest = .ok model) (models : List String) :
    List.Forall₂ (fun line field => ∃ number, Field.ofLine? number line = .ok (some field))
      ((rest.map trim).filter (declaresScalar models)) (model.scalars models) := by
  induction rest generalizing number model with
  | nil =>
    cases read
    exact .nil
  | cons line rest ih =>
    obtain ⟨item, later, here, behind, fields⟩ := fields_of_ofLines? read
    rw [scalars, fields, List.filter_append, List.map_cons]
    have tail := ih behind
    rcases Item.fields_of_ofLine? here with ⟨none, bare⟩ | ⟨field, one, declared⟩
    next =>
      have skipped : declaresScalar models (trim line) = false := by
        rw [declaresScalar, bare, Option.any_none]
      rw [List.filter_cons_of_neg (by simp [skipped]), none]
      exact tail
    next =>
      obtain ⟨_, _, _, parts, typed⟩ := Field.parts_of_ofLine? declared
      -- The line is judged by its type as it is written, the field by the type that was read.
      have same : declaresScalar models (trim line) = decide (field.type ∉ models) := by
        rw [declaresScalar, parts, Option.any_some, typed]
      rw [one]
      by_cases scalar : field.type ∉ models
      next =>
        rw [List.filter_cons_of_pos (by simp [same, scalar]),
          List.filter_cons_of_pos (by simp [scalar])]
        exact .cons ⟨number, declared⟩ tail
      next =>
        rw [List.filter_cons_of_neg (by simp [same, scalar]),
          List.filter_cons_of_neg (by simpa using scalar)]
        exact tail

end Model

end Lines

variable {R : Type} [Coordinate R]

/-- In every schema that is read, the columns of a table are those of the scalar lines of the last
block of its name, in their order, and the default of a column is the string of its line, quotes
included, exactly if no generator occurs in that string. Only the call that counts changes a type, and
only that of a key. No string of the text is lost or changed with the comments. -/
theorem string_defaults_verbatim_iff (config : Config R) (keywords : config.prismaKeywords = {})
    (draws : Nat → R) (text : List Char) (schema : Schema R)
    (read : (readSchema config draws text).outcome = .ok schema) :
    (∀ before content after, (Region.text .code).run before = .text .code → IsContent content →
      text = before ++ (quotedText content ++ after) →
      stripComments text = stripComments before ++ (quotedText content ++ stripComments after)) ∧
    ∀ earlier block later,
      (blocks "model" (stripComments text)).blocks = earlier ++ block :: later →
      block.name ∉ later.map (·.name) →
      ∃ table ∈ schema.tables, table.id = block.name ∧
        List.Forall₂ (fun line column => ∀ front content back field,
            line = defaultLine front content back → StringDefault front content field →
            StringDefault.Gives config.prismaTypes (schema.enums.map (·.name)) front content back
              field column)
          (scalarLines schema.tableIds block.body) table.columns := by
  constructor
  next =>
    rintro before content after code plain rfl
    have whole := stripComments_withString code plain after
    simpa [withString, quotedText] using whole
  next =>
    intro earlier block later split last
    obtain ⟨models, enums, collected, listed, -, made⟩ := makes_of_readSchema read
    rw [keywords] at collected
    obtain ⟨model, present, ofBlock⟩ := mem_of_collect collected split last
    obtain ⟨table, inside, makes⟩ := exists_of_forall₂ made.flip present
    have ids : schema.tableIds = models.map (·.name) :=
      (map_eq_map_of_forall₂ made fun _ _ makes => makes.id.symm).symm
    have lines := Model.scalars_of_ofLines? ofBlock (models.map (·.name))
    refine ⟨table, inside, makes.id.trans (Model.ofLines?_name ofBlock), ?_⟩
    rw [ids, listed]
    refine forall₂_join lines.flip makes.columns fun field line column read made => ?_
    rintro front content back plain rfl shape
    obtain ⟨number, read⟩ := read
    rw [keywords] at made
    exact shape.gives read made

/-- A string with the mark of a comment, a comma and a parenthesis. -/
def letters : List Char :=
  ("model Letter \x7b\n  id Int @id @default(autoincrement())\n" ++
    "  body String @default(\"a // b, (c\") @unique\n\x7d\n").toList

theorem string_defaults_verbatim_iff_letters : ∃ schema,
    (readSchema (Config.default : Config Int) (fun _ => 0) letters).outcome = .ok schema ∧
      ∃ table ∈ schema.tables, table.id = "Letter" ∧ ∃ column ∈ table.columns,
        column.name = "body" ∧ column.defaultValue = some "\"a // b, (c\"" := by
  have some : (readSchema (Config.default : Config Int) (fun _ => 0) letters).outcome.toOption.map
      Schema.tableIds = some ["Letter"] := by
    decide +kernel
  obtain ⟨schema, held, ids⟩ := Option.map_eq_some_iff.mp some
  have read := toOption_eq_some.mp held
  let block : Block :=
    { name := "Letter", line := 1
      body := ("\n  id Int @id @default(autoincrement())\n" ++
        "  body String @default(\"a // b, (c\") @unique\n").toList }
  let field : Field :=
    { name := "body", type := "String", isArray := false, isOptional := false
      attributes := [], line := 0 }
  obtain ⟨table, inside, id, columns⟩ := (string_defaults_verbatim_iff Config.default rfl (fun _ => 0)
    letters schema read).2 [] block [] (by decide +kernel) List.not_mem_nil
  have shape : StringDefault "body String ".toList "a // b, (c".toList field :=
    ⟨by decide +kernel, rfl, by decide, by decide⟩
  have listed : defaultLine "body String ".toList "a // b, (c".toList " @unique".toList ∈
      scalarLines schema.tableIds block.body := by
    rw [ids]
    decide +kernel
  obtain ⟨column, member, gives⟩ := exists_of_forall₂ columns.flip listed
  have given := gives _ _ _ field rfl shape
  have plain : ¬ MentionsGenerator "a // b, (c".toList := by
    rintro ⟨call, listed, inside⟩
    have absent : ∀ call ∈ generatorCalls, contains call.toList "a // b, (c".toList = false := by
      decide
    cases (absent call listed).symm.trans (contains_iff.mpr inside)
  exact ⟨schema, read, table, inside, id, column, member, given.name, given.verbatim.mpr plain⟩

def reminders : List Char :=
  "model Reminder \x7b\n  note String @default(\"call now() first\")\n\x7d\n".toList

/-- A string in which a generator is mentioned is replaced as if it were a call. -/
theorem now_in_string_replaces_default :
    StringDefault "note String ".toList "call now() first".toList
        { name := "note", type := "String", isArray := false, isOptional := false
          attributes := [], line := 0 } ∧
      defaultLine "note String ".toList "call now() first".toList [] ∈
        scalarLines ["Reminder"] "\n  note String @default(\"call now() first\")\n".toList ∧
      (readSchema (Config.default : Config Int) (fun _ => 0) reminders).outcome.toOption.map
          (·.tables.map fun table =>
            (table.id, table.columns.map fun column => (column.name, column.defaultValue))) =
        some [("Reminder", [("note", some "now()")])] ∧
      "now()" ≠ String.ofList (quotedText "call now() first".toList) :=
  ⟨⟨by decide +kernel, rfl, by decide, by decide⟩, by decide +kernel, by decide +kernel, by decide⟩

end SchemaAtlas.Blocks
