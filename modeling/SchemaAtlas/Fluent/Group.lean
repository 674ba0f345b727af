import SchemaAtlas.Script.Expr

/-!
Shared groups of columns: objects that are declared under a name and spread into tables, or into
one another.
-/

set_option autoImplicit false

namespace SchemaAtlas.Fluent

open Script

structure Group where
  name : String
  entries : List (Entry Expr)
  deriving Repr

abbrev Groups := List Group

namespace Groups

/-- The entries of a group; a later declaration of a name counts before an earlier one. -/
def entries? (groups : Groups) (name : String) : Option (List (Entry Expr)) :=
  (groups.reverse.find? (·.name = name)).map (·.entries)

/-- What stands in the place of an entry. `inside` says what a spread of a group becomes; a spread
of anything else stays. -/
def replaceSpread (groups : Groups) (inside : String → List (Entry Expr) → List (Entry Expr)) :
    Entry Expr → List (Entry Expr)
  | .spread (.identifier name) =>
    match groups.entries? name with
    | none => [.spread (.identifier name)]
    | some entries => inside name entries
  | entry => [entry]

/-- The entries with every spread of a group written out. The number says how deep groups may still
lie in one another, and `expanding` are those that are being written out: a spread of one of them
adds nothing. -/
def writeOut (groups : Groups) : Nat → List String → List (Entry Expr) → List (Entry Expr)
  | 0, _, entries => entries.flatMap (groups.replaceSpread fun _ _ => [])
  | depth + 1, expanding, entries =>
    entries.flatMap (groups.replaceSpread fun name inner =>
      if name ∈ expanding then [] else writeOut groups depth (name :: expanding) inner)

/-- The entries with every spread of a group written out. Groups lie at most as deep in one another
as there are groups. -/
def flatten (groups : Groups) (entries : List (Entry Expr)) : List (Entry Expr) :=
  writeOut groups groups.length [] entries

end Groups

end SchemaAtlas.Fluent
