import SchemaAtlas.Proofs.Blocks.Inserted

/-!
Attributes with one argument, with and without a key in front of it: how they are written, and what
they are read as.
-/

set_option autoImplicit false

namespace SchemaAtlas.Blocks

open Text

namespace Attribute

variable {arg key : List Char}

theorem keyValue?_behind_key (isArgument : IsArgument arg) (word : IsWordText key) :
    keyValue? (key ++ ':' :: ' ' :: arg) = some (key, arg) := by
  have taken : takeWord? (key ++ ':' :: ' ' :: arg) = some (key, ':' :: ' ' :: arg) :=
    takeWord?_append word (by rintro _ ⟨⟩; decide)
  have blank : ∀ c ∈ [' '], isBlank c = true := by decide
  have value : trim (' ' :: arg) = arg :=
    (trim_append blank).trans (trim_eq_self isArgument.trimmed)
  simp only [keyValue?, taken, Option.bind_eq_bind, Option.bind_some]
  change some (key, trim (' ' :: arg)) = _
  rw [value]

theorem keyValue?_eq_none (stops : ∀ c ∈ arg.head?, isWord c = false) : keyValue? arg = none := by
  have none : takeWord? arg = none := takeRun?_eq_none stops
  rw [keyValue?, none]
  rfl

end Attribute

namespace Written.Attribute

/-- The attribute `@name([list])`. -/
def listing (name list : String) : Attribute where
  name
  args := some ("[" ++ list ++ "]")

/-- The attribute with a key in front of its arguments. -/
def keyed (attr : Attribute) (key : String) : Attribute :=
  { attr with args := attr.args.map fun args => key ++ ": " ++ args }

/-- An attribute with one argument, which does not begin like a word. -/
structure HasArgument (attr : Attribute) (arg : List Char) : Prop extends attr.OnLine where
  args_eq : attr.args = some (String.ofList arg)
  isArgument : IsArgument arg
  begins : ∃ c rest, arg = c :: rest ∧ breaksHeader c = true

theorem hasArgument_listing {name list : String} (named : name ≠ "")
    (inside : ∀ c ∈ name.toList, Blocks.Attribute.isNameChar c = true)
    (inline : IsInline list.toList) (unbroken : '\n' ∉ list.toList) :
    (listing name list).HasArgument ('[' :: list.toList ++ [']']) where
  named := named
  name := inside
  args := by
    rintro _ ⟨⟩
    have whole : ("[" ++ list ++ "]").toList = '[' :: list.toList ++ [']'] := by simp
    rw [whole]
    exact ⟨.group rfl (by decide) inline .nil, by simp [unbroken]⟩
  args_eq := congrArg some (String.toList_inj.mp (by simp))
  isArgument := .list inline.nested
  begins := ⟨'[', _, rfl, rfl⟩

theorem hasArgument_quoting {name content : String} (named : name ≠ "")
    (inside : ∀ c ∈ name.toList, Blocks.Attribute.isNameChar c = true)
    (plain : IsContent content.toList) :
    (quoting name content).HasArgument (quotedText content.toList) where
  toOnLine := onLine_quoting named inside plain
  args_eq := congrArg some (String.toList_inj.mp (by simp [quotedText]))
  isArgument := isArgument_quotedText plain
  begins := ⟨'"', _, rfl, rfl⟩

namespace HasArgument

variable {attr : Attribute} {arg : List Char} {key : String}

theorem isCall (given : attr.HasArgument arg) : attr.IsCall where
  toOnLine := given.toOnLine
  called := ⟨_, given.args_eq⟩

theorem args_keyed (given : attr.HasArgument arg) :
    (attr.keyed key).args = some (String.ofList (key.toList ++ ':' :: ' ' :: arg)) := by
  rw [keyed, given.args_eq, Option.map_some]
  exact congrArg some (String.toList_inj.mp (by simp))

theorem isCall_keyed (given : attr.HasArgument arg) (word : IsWordText key.toList) :
    (attr.keyed key).IsCall where
  named := given.named
  name := given.name
  args := by
    obtain ⟨inline, unbroken⟩ := given.args _ given.args_eq
    rw [String.toList_ofList] at inline unbroken
    intro args held
    rw [given.args_keyed, Option.mem_some_iff] at held
    subst held
    have whole : key.toList ++ ':' :: ' ' :: arg = key.toList ++ ([':', ' '] ++ arg) := by simp
    rw [String.toList_ofList, whole]
    have letters : IsInline key.toList := .of_calm fun c member => isCalm_of_isWord (word.2 c member)
    refine ⟨letters.append (.cons rfl (.cons rfl inline)) (by simp), ?_⟩
    simp [unbroken, word.not_mem (show isWord '\n' = false by decide)]
  called := ⟨_, given.args_keyed⟩

theorem read_eq (given : attr.HasArgument arg) : attr.read =
    { name := attr.name, args := [String.ofList arg], rawArgs := some (String.ofList arg) } := by
  rw [Attribute.read_eq, given.args_eq, Option.elim_some, String.toList_ofList,
    given.isArgument.splitCommas_eq]
  rfl

theorem read_keyed (given : attr.HasArgument arg) (word : IsWordText key.toList) :
    (attr.keyed key).read =
      { name := attr.name, args := [String.ofList (key.toList ++ ':' :: ' ' :: arg)]
        rawArgs := some (String.ofList (key.toList ++ ':' :: ' ' :: arg)) } := by
  rw [Attribute.read_eq, given.args_keyed, Option.elim_some, String.toList_ofList,
    (given.isArgument.behind_key word).splitCommas_eq]
  rfl

/-- The key stands in front of the argument, where no header can begin. -/
theorem sameEnd (given : attr.HasArgument arg) (word : IsWordText key.toList) :
    SameEnd attr (attr.keyed key) := by
  obtain ⟨c, rest, rfl, breaks⟩ := given.begins
  have absent {d : Char} (outside : Blocks.Attribute.isNameChar d = false) :
      d ∉ attr.name.toList := by
    intro member
    rw [given.name d member] at outside
    cases outside
  refine ⟨'@' :: (attr.name.toList ++ ['(']),
    '@' :: (attr.name.toList ++ '(' :: (key.toList ++ [':', ' '])), c, rest ++ [')'], ?_, ?_, breaks,
    ?_, ?_⟩
  · rw [blockText, text, given.args_eq]
    simp
  · rw [blockText, text, given.args_keyed]
    simp [keyed]
  · have brace := absent (show Blocks.Attribute.isNameChar '{' = false by decide)
    have feed := absent (show Blocks.Attribute.isNameChar '\n' = false by decide)
    simp [brace, feed]
  · have brace := absent (show Blocks.Attribute.isNameChar '{' = false by decide)
    have feed := absent (show Blocks.Attribute.isNameChar '\n' = false by decide)
    simp [brace, feed, word.not_mem (show isWord '{' = false by decide),
      word.not_mem (show isWord '\n' = false by decide)]

end HasArgument

end Written.Attribute

theorem Attribute.named?_single {attr : Attribute} {arg : List Char}
    (args : attr.args = [String.ofList arg]) (key : String) :
    attr.named? key = (keyValue? arg).bind fun found =>
      if String.ofList found.1 = key then some (String.ofList found.2) else none := by
  rw [named?, args, List.findSome?_singleton, String.toList_ofList]
  rfl

namespace Written.Attribute.HasArgument

variable {attr : Attribute} {arg : List Char} {key : String}

theorem named?_read (given : attr.HasArgument arg) (other : String) :
    attr.read.named? other = none := by
  obtain ⟨c, rest, rfl, breaks⟩ := given.begins
  have stops : ∀ d ∈ (c :: rest).head?, isWord d = false := by
    rintro _ ⟨⟩
    simp only [breaksHeader, Bool.and_eq_true, Bool.not_eq_true'] at breaks
    exact breaks.1.1
  rw [Blocks.Attribute.named?_single (by rw [given.read_eq]),
    Blocks.Attribute.keyValue?_eq_none stops, Option.bind_none]

theorem named?_keyed (given : attr.HasArgument arg) (word : IsWordText key.toList) (other : String) :
    (attr.keyed key).read.named? other = if key = other then some (String.ofList arg) else none := by
  rw [Blocks.Attribute.named?_single (by rw [given.read_keyed word]),
    Blocks.Attribute.keyValue?_behind_key given.isArgument word, Option.bind_some,
    String.ofList_toList]

end Written.Attribute.HasArgument

end SchemaAtlas.Blocks
