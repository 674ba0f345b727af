import SchemaAtlas.Blocks.Attribute
import SchemaAtlas.Blocks.Written
import SchemaAtlas.Proofs.Blocks.Values
import SchemaAtlas.Proofs.Text.Matches
import SchemaAtlas.Proofs.Text.Pieces

/-!
Attributes read back from their text: each with its name and with its arguments as they were
written, whatever these look like, as long as their brackets and strings are closed.
-/

set_option autoImplicit false

namespace SchemaAtlas.Blocks.Written

open Text

namespace Attribute

/-- An attribute that its text tells apart from what follows: it has a name, and in its arguments
all brackets and strings are closed. -/
structure Closed (attr : Attribute) : Prop where
  named : attr.name ≠ ""
  name : ∀ c ∈ attr.name.toList, Blocks.Attribute.isNameChar c = true
  args : ∀ args ∈ attr.args, IsNested args.toList

instance : DecidablePred Closed := fun attr =>
  decidable_of_iff (attr.name ≠ "" ∧ (∀ c ∈ attr.name.toList, Blocks.Attribute.isNameChar c = true) ∧
      ∀ args ∈ attr.args, IsNested args.toList)
    ⟨fun ⟨named, name, args⟩ => ⟨named, name, args⟩, fun ⟨named, name, args⟩ => ⟨named, name, args⟩⟩

/-- A written attribute as it is read. -/
def read (attr : Attribute) : Blocks.Attribute :=
  match attr.args with
  | none => { name := attr.name }
  | some args => Blocks.Attribute.ofRawArgs attr.name.toList args.toList

theorem read_name (attr : Attribute) : attr.read.name = attr.name := by
  cases held : attr.args with
  | none => simp [read, held]
  | some args => simp [read, held, Blocks.Attribute.ofRawArgs]

theorem read_eq (attr : Attribute) : attr.read =
    { name := attr.name
      args := (attr.args.elim [] fun args => splitCommas args.toList).map String.ofList
      rawArgs := attr.args } := by
  cases held : attr.args with
  | none => simp [read, held]
  | some args => simp [read, held, Blocks.Attribute.ofRawArgs]

variable {attr : Attribute}

theorem Closed.head?_text (closed : attr.Closed) {rest : List Char}
    (stops : ∀ c ∈ rest.head?, Blocks.Attribute.isNameChar c = false) :
    Blocks.Attribute.head? ('@' :: (attr.name.toList ++ rest)) =
      some (attr.name.toList, rest) := by
  have some : attr.name.toList ≠ [] := by simpa using closed.named
  have single : (attr.name.toList ++ rest).head? ≠ .some '@' := by
    intro mark
    rw [List.head?_append_of_ne_nil _ some] at mark
    cases closed.name '@' (List.mem_of_head? mark)
  rw [Blocks.Attribute.head?_single single, takeRun?_append some closed.name stops]

/-- An attribute with arguments ends at its closing parenthesis, whatever follows. -/
theorem Closed.here?_args (closed : attr.Closed) {args : String} (held : attr.args = some args)
    (rest : List Char) :
    Blocks.Attribute.here? (attr.text ++ rest) = some (.ok attr.read, rest) := by
  have stop : ∀ c ∈ ('(' :: (args.toList ++ ')' :: rest)).head?,
      Blocks.Attribute.isNameChar c = false := by
    rintro _ ⟨⟩
    decide
  have head := closed.head?_text stop
  have whole : attr.text ++ rest =
      '@' :: (attr.name.toList ++ '(' :: (args.toList ++ ')' :: rest)) := by simp [text, held]
  have inside : closeGroup? '(' (args.toList ++ ')' :: rest) = some (args.toList, rest) :=
    (closed.args args held).closeGroup?_append rfl rest
  rw [whole, Blocks.Attribute.here?, head]
  simp [inside, read, held]

theorem Closed.here?_text (closed : attr.Closed) {rest : List Char}
    (stops : ∀ c ∈ rest.head?, Blocks.Attribute.isNameChar c = false ∧ c ≠ '(') :
    Blocks.Attribute.here? (attr.text ++ rest) = some (.ok attr.read, rest) := by
  cases held : attr.args with
  | none =>
    have head := closed.head?_text fun c first => (stops c first).1
    have whole : attr.text ++ rest = '@' :: (attr.name.toList ++ rest) := by simp [text, held]
    rw [whole, Blocks.Attribute.here?, head]
    cases rest with
    | nil => simp [read, held]
    | cons c rest =>
      have round : c ≠ '(' := (stops c rfl).2
      simp [read, held, round]
  | some args => exact closed.here?_args held rest

end Attribute

variable {attributes : List Attribute}

/-- The blank in front of the next attribute belongs to none. -/
theorem spaced_stops (attributes : List Attribute) :
    ∀ c ∈ (attributes.flatMap fun attr => ' ' :: attr.text).head?,
      Blocks.Attribute.isNameChar c = false ∧ c ≠ '(' := by
  cases attributes with
  | nil => simp
  | cons attr attributes =>
    rintro _ ⟨⟩
    decide

theorem matches_spaced (closed : ∀ attr ∈ attributes, attr.Closed) (before : Option Char) :
    matchesFrom (fun _ => Blocks.Attribute.here?) 0 before
        (attributes.flatMap fun attr => ' ' :: attr.text) =
      attributes.map fun attr => .ok attr.read := by
  induction attributes generalizing before with
  | nil => rfl
  | cons attr attributes ih =>
    have later := ih fun other member => closed other (.tail _ member)
    have here := (closed attr (.head _)).here?_text (spaced_stops attributes)
    rw [List.flatMap_cons, List.cons_append, matchesFrom_cons rfl,
      matchesFrom_append (by simp [Attribute.text]) here, later, List.map_cons]

theorem mapM_read (attributes : List Attribute) :
    (attributes.map fun attr => (.ok attr.read : Except Fault Blocks.Attribute)).mapM id =
      .ok (attributes.map Attribute.read) := by
  induction attributes with
  | nil => rfl
  | cons attr attributes ih => rw [List.map_cons, List.mapM_cons, ih]; rfl

theorem listOf?_spaced (closed : ∀ attr ∈ attributes, attr.Closed) :
    Blocks.Attribute.listOf? (attributes.flatMap fun attr => ' ' :: attr.text) =
      .ok (attributes.map Attribute.read) := by
  rw [Blocks.Attribute.listOf?, allMatches, matches_spaced closed, mapM_read]

/-- Attributes that are written with a space between neighbours are read back in their order, each
with its name, the text of its arguments, and the arguments that this text has between commas. -/
theorem attributes_read_back (closed : ∀ attr ∈ attributes, attr.Closed) :
    Blocks.Attribute.listOf? (List.intercalate [' '] (attributes.map Attribute.text)) =
      .ok (attributes.map fun attr =>
        { name := attr.name
          args := (attr.args.elim [] fun args => splitCommas args.toList).map String.ofList
          rawArgs := attr.args }) := by
  rw [← funext Attribute.read_eq]
  cases attributes with
  | nil => rfl
  | cons attr attributes =>
    -- The first attribute has no blank in front, so it is taken off before the induction applies.
    have later := matches_spaced fun other member => closed other (.tail _ member)
    have here := (closed attr (.head _)).here?_text (spaced_stops attributes)
    have found := mapM_read (attr :: attributes)
    rw [List.map_cons] at found
    rw [List.map_cons, intercalate_cons, List.flatMap_map, Blocks.Attribute.listOf?, allMatches]
    simp only [List.singleton_append]
    rw [matchesFrom_append (by simp [Attribute.text]) here, later, found]

/-- Attributes whose arguments look like further attributes, and an argument list that is empty. -/
def nestedAttributes : List Attribute := [
  { name := "id" },
  { name := "default", args := some "\"@unique, a)\", [x(',')]" },
  { name := "db.Char", args := some "@map(\"b\")" },
  { name := "index", args := some "" }]

theorem attributes_read_back_nested :
    (∀ attr ∈ nestedAttributes, attr.Closed) ∧
      Blocks.Attribute.listOf?
          "@id @default(\"@unique, a)\", [x(',')]) @db.Char(@map(\"b\")) @index()".toList =
        .ok [
          { name := "id" },
          { name := "default", args := ["\"@unique, a)\"", "[x(',')]"]
            rawArgs := some "\"@unique, a)\", [x(',')]" },
          { name := "db.Char", args := ["@map(\"b\")"], rawArgs := some "@map(\"b\")" },
          { name := "index", args := [], rawArgs := some "" }] := by
  have closed : ∀ attr ∈ nestedAttributes, attr.Closed := by decide +kernel
  exact ⟨closed, attributes_read_back closed⟩

end SchemaAtlas.Blocks.Written
