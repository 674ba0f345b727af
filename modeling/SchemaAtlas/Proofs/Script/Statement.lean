import SchemaAtlas.Proofs.Script.Expr

/-!
A script that consists of one exported constant.
-/

set_option autoImplicit false

namespace SchemaAtlas.Script

open Reader

namespace Rules

variable {rules : Rules} {tokens rest : List Token} {value : Expr} {name : String}

theorem pattern_name (depth : Nat) (name : String) (gap : List Char) (tokens : List Token) :
    (upTo (depth + 1)).pattern ({ kind := .word, text := name, gap } :: tokens) =
      some (.plain name, tokens) := by
  simp [upTo, patternRule, patternRule.objectPattern, patternRule.arrayPattern]

/-- The tokens of a constant in front of its value. -/
def constantTokens (name : String) : List Token :=
  [{ kind := .word, text := "const", gap := [' '] }, { kind := .word, text := name, gap := [' '] },
    { kind := .sign, text := "=", gap := [' '] }]

/-- Nothing stands at the end of a script, or a semicolon. -/
def EndsScript (rest : List Token) : Prop :=
  rest = [] ∨ ∃ gap, rest = [{ kind := .sign, text := ";", gap }]

theorem EndsScript.stops (ends : EndsScript rest) : Stops rest := by
  rcases ends with rfl | ⟨gap, rfl⟩ <;> simp [Stops]

theorem EndsScript.uncontinued (ends : EndsScript rest) : sign "," rest = none := by
  rcases ends with rfl | ⟨gap, rfl⟩ <;> simp

theorem EndsScript.endOfStatement (ends : EndsScript rest) (ending : Ending) :
    endOfStatement ending rest = some ((), []) := by
  rcases ends with rfl | ⟨gap, rfl⟩ <;> simp [Reader.endOfStatement]

/-- A constant whose value goes up to the end of the script. -/
theorem bindingStatement_constant {depth : Nat} (ends : EndsScript rest)
    (read : (upTo (depth + 1)).exprAt .exposed tokens = some (value, rest)) :
    bindingStatement (upTo (depth + 1)) (constantTokens name ++ tokens) =
      some (.declares [{ name, init := some value }], []) := by
  have bound : binding (upTo (depth + 1)) ({ kind := .word, text := name, gap := [' '] } ::
      { kind := .sign, text := "=", gap := [' '] } :: tokens) =
        some ({ pattern := .plain name, init := some value, line := 1 }, rest) := by
    rw [exprAt_upTo] at read
    simp [binding, pattern_name, typeAnnotation, initializer, read]
  simp [constantTokens, bindingStatement, variableKeywords, bindings,
    separated_single bound ends.uncontinued, ends.endOfStatement, Binding.declaration?]

theorem statement_constant {depth : Nat} (other : name ≠ "enum") (ends : EndsScript rest)
    (read : (upTo (depth + 1)).exprAt .exposed tokens = some (value, rest)) :
    (upTo (depth + 2)).statement (constantTokens name ++ tokens) =
      some (.declares [{ name, init := some value }], []) := by
  have bound : bindingStatement _ (constantTokens name ++ tokens) = _ :=
    bindingStatement_constant ends read
  have single : enumDeclaration (upTo (depth + 1)) (constantTokens name ++ tokens) = none := by
    simp [enumDeclaration, constantTokens, other]
  have statement : statementRule (upTo (depth + 1)) (constantTokens name ++ tokens) =
      (skip (enumDeclaration (upTo (depth + 1))) <|> bindingStatement (upTo (depth + 1)))
        (constantTokens name ++ tokens) := rfl
  rw [show (upTo (depth + 2)).statement = fun tokens => statementRule (upTo (depth + 1)) tokens from rfl]
  simp only [statement, orElse_apply, skip, bind_apply, single, Option.bind_none, Option.none_or, bound]

theorem exportedDeclaration_declares {first : Token} {more rest : List Token}
    (word : first.kind = .word ∧ first.text ∈ declarationWords) {declarations : List Declaration}
    (read : rules.statement (first :: more) = some (.declares declarations, rest)) :
    exportedDeclaration rules (first :: more) =
      some (.declares (declarations.map ({ · with exported := true })), rest) := by
  simp [exportedDeclaration, word, read]

theorem statement_exported {depth : Nat} (other : name ≠ "enum") (ends : EndsScript rest)
    (read : (upTo (depth + 1)).exprAt .exposed tokens = some (value, rest)) :
    (upTo (depth + 3)).statement
      ({ kind := .word, text := "export" } :: (constantTokens name ++ tokens)) =
        some (.declares [{ name, init := some value, exported := true }], []) := by
  have undefaulted : exportDefault (upTo (depth + 2)) (constantTokens name ++ tokens) = none := by
    simp [exportDefault, constantTokens]
  have declared : exportedDeclaration (upTo (depth + 2)) (constantTokens name ++ tokens) = _ :=
    exportedDeclaration_declares ⟨rfl, by decide⟩ (statement_constant other ends read)
  have exports : exportStatement (upTo (depth + 2))
      ({ kind := .word, text := "export" } :: (constantTokens name ++ tokens)) =
        some (.declares [{ name, init := some value, exported := true }], []) := by
    simp [exportStatement, skip, undefaulted, declared]
  exact exports

end Rules

/-- A script that consists of an exported constant. -/
theorem statements?_exported {name : String} (other : name ≠ "enum") {tokens rest : List Token}
    (ends : Rules.EndsScript rest) {value : Expr} (read : ∀ depth, tokens.length ≤ depth →
      (Rules.upTo (depth + 1)).exprAt .exposed tokens = some (value, rest)) :
    statements? ({ kind := .word, text := "export" } :: (Rules.constantTokens name ++ tokens)) =
      some [.declares [{ name, init := some value, exported := true }]] := by
  have depth : 2 * ({ kind := .word, text := "export" } ::
      (Rules.constantTokens name ++ tokens) : List Token).length + 2 =
        (2 * tokens.length + 7) + 3 := by
    simp [Rules.constantTokens]
    omega
  have first := Rules.statement_exported other ends (read (2 * tokens.length + 7) (by omega))
  rw [statements?, depth, many_of_whole first rfl]

/-- A name that a constant can have. -/
structure IsVariable (name : String) : Prop where
  held : name.toList ≠ []
  parts : ∀ c ∈ name.toList, isNamePart c = true
  undigited : ∀ c ∈ name.toList.head?, c.isDigit = false
  other : name ≠ "enum"

instance (name : String) : Decidable (IsVariable name) :=
  decidable_of_iff
    (name.toList ≠ [] ∧ (∀ c ∈ name.toList, isNamePart c = true) ∧
      (∀ c ∈ name.toList.head?, c.isDigit = false) ∧ name ≠ "enum")
    ⟨fun ⟨held, parts, undigited, other⟩ => ⟨held, parts, undigited, other⟩,
      fun ⟨held, parts, undigited, other⟩ => ⟨held, parts, undigited, other⟩⟩

end SchemaAtlas.Script
