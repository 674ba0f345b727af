import SchemaAtlas.Fluent.Column

/-!
Chains of calls: the base call of a column with its modifiers called on it one behind the other. An
expression is taken for a column definition exactly if it has this form, and then the definition is
the one that was written.
-/

set_option autoImplicit false

namespace SchemaAtlas.Fluent

open Script

/-- The call of a modifier on what stands in front of it. -/
def Modifier.callOn (modifier : Modifier) (receiver : Expr) : Expr :=
  .call (.member receiver modifier.name) modifier.arguments

namespace Chain

/-- The calls that create a column: of a name, or of a member of one of the builders. -/
inductive IsBaseCall (builders : List String) (base : String) (arguments : List Expr) : Expr → Prop
  | ofName : IsBaseCall builders base arguments (.call (.identifier base) arguments)
  | ofMember {builder : String} (known : builder ∈ builders) :
      IsBaseCall builders base arguments (.call (.member (.identifier builder) base) arguments)

/-- An expression with modifiers called on it, the first one innermost. -/
def callAll (start : Expr) (modifiers : List Modifier) : Expr :=
  modifiers.foldl (fun receiver modifier => modifier.callOn receiver) start

variable {builders : List String}

theorem IsBaseCall.ofExpr? {base : String} {arguments : List Expr} {start : Expr}
    (isBase : IsBaseCall builders base arguments start) :
    ofExpr? builders start = some { base, arguments } := by
  cases isBase with
  | ofName => rw [Chain.ofExpr?]
  | ofMember known => rw [Chain.ofExpr?, if_pos known]

theorem ofExpr?_callOn {receiver : Expr} {chain : Chain}
    (found : ofExpr? builders receiver = some chain) (modifier : Modifier) :
    ofExpr? builders (modifier.callOn receiver) = some (chain.addModifier modifier) := by
  have unnamed (name : String) : receiver ≠ .identifier name := by
    rintro rfl
    simp [ofExpr?] at found
  rw [Modifier.callOn, ofExpr?, found, Option.map_some]
  -- A name alone is no chain, so the call is not one of a member of a builder.
  exact unnamed

theorem ofExpr?_callAll {start : Expr} {chain : Chain}
    (found : ofExpr? builders start = some chain) (modifiers : List Modifier) :
    ofExpr? builders (callAll start modifiers) =
      some { chain with modifiers := chain.modifiers ++ modifiers } := by
  -- The start is general: each call adds its modifier behind those before it.
  induction modifiers generalizing start chain with
  | nil => simpa [callAll] using found
  | cons modifier modifiers ih =>
    have next := ih (ofExpr?_callOn found modifier)
    simpa [callAll, addModifier] using next

theorem callAll_concat (start : Expr) (modifiers : List Modifier) (last : Modifier) :
    callAll start (modifiers ++ [last]) = last.callOn (callAll start modifiers) := by
  simp [callAll]

theorem exists_baseCall_of_ofExpr? {value : Expr} {chain : Chain}
    (found : ofExpr? builders value = some chain) :
    ∃ start, IsBaseCall builders chain.base chain.arguments start ∧
      value = callAll start chain.modifiers := by
  fun_induction ofExpr? builders value generalizing chain with
  | case1 base arguments =>
    cases found
    exact ⟨_, .ofName, rfl⟩
  | case2 receiver name arguments known =>
    cases found
    exact ⟨_, .ofMember known, rfl⟩
  | case3 receiver name arguments unknown => cases found
  | case4 receiver name arguments unnamed ih =>
    obtain ⟨inner, read, rfl⟩ := Option.map_eq_some_iff.mp found
    obtain ⟨start, isBase, same⟩ := ih read
    refine ⟨start, isBase, ?_⟩
    rw [addModifier, callAll_concat, ← same]
    rfl
  | case5 => cases found

/-- Reading a chain undoes writing it: an expression is read as a chain exactly if it is the base call
of the chain with its modifiers called on it in their order. -/
theorem ofExpr?_undoes_calls (builders : List String) (value : Expr) (chain : Chain) :
    ofExpr? builders value = some chain ↔
      ∃ start, IsBaseCall builders chain.base chain.arguments start ∧
        value = callAll start chain.modifiers := by
  constructor
  next => exact exists_baseCall_of_ofExpr?
  next =>
    rintro ⟨start, isBase, rfl⟩
    simpa using ofExpr?_callAll isBase.ofExpr? chain.modifiers

end Chain

end SchemaAtlas.Fluent
