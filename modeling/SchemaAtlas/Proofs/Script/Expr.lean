import SchemaAtlas.Proofs.Script.Reader
import SchemaAtlas.Script.Module

/-!
Expressions read off the front of a list of tokens: operands with members and calls behind them, up
to a sign that ends them.
-/

set_option autoImplicit false

namespace SchemaAtlas.Script

open Reader

/-- Words that a script does not use as names. -/
def reservedWords : List String :=
  ["break", "case", "catch", "class", "const", "continue", "debugger", "default", "delete", "do",
    "else", "enum", "export", "extends", "false", "finally", "for", "function", "if", "import", "in",
    "instanceof", "new", "null", "return", "super", "switch", "this", "throw", "true", "try",
    "typeof", "undefined", "var", "void", "while", "with", "async", "await", "let", "static", "yield"]

/-- An expression ends in front of tokens: there are none left, or a sign separates or closes. -/
def Stops (tokens : List Token) : Prop :=
  ∀ token ∈ tokens.head?, token.kind = .sign ∧ token.text ∈ [",", ";", ")", "]", "\x7d"]

theorem Stops.cases {tokens : List Token} (stops : Stops tokens) :
    tokens = [] ∨ ∃ text ∈ [",", ";", ")", "]", "\x7d"], ∃ gap line more,
      tokens = { kind := .sign, text, gap, line } :: more := by
  cases tokens with
  | nil => exact .inl rfl
  | cons token more =>
    obtain ⟨kind, text, gap, line⟩ := token
    obtain ⟨rfl, among⟩ := stops _ rfl
    exact .inr ⟨text, among, gap, line, more, rfl⟩

theorem Stops.arrowless {tokens : List Token} (stops : Stops tokens) : sign "=>" tokens = none := by
  obtain rfl | ⟨text, among, gap, line, more, rfl⟩ := stops.cases
  · rfl
  · have other : text ≠ "=>" := fun same => absurd (same ▸ among) (by decide)
    simp [other]

/-- Keywords that stand in front of an operand or begin a function. -/
def frontWords : List String :=
  ["async", "await", "delete", "new", "typeof", "void", "yield"]

/-- Tokens that begin with an operand, with no mark or keyword in front of it and no arrow behind. -/
inductive BeginsOperand : List Token → Prop
  | literal {token : Token} {more : List Token} (kind : token.kind ∈ [.string, .number]) :
      BeginsOperand (token :: more)
  | group {token : Token} {more : List Token} (kind : token.kind = .sign)
      (opens : token.text ∈ ["\x7b", "["]) : BeginsOperand (token :: more)
  | name {token : Token} {more : List Token} (kind : token.kind = .word)
      (free : token.text ∉ frontWords) (arrowless : sign "=>" more = none) :
      BeginsOperand (token :: more)

namespace BeginsOperand

variable {tokens : List Token}

theorem word_eq_none (begins : BeginsOperand tokens) (text : String) (front : text ∈ frontWords) :
    word text tokens = none := by
  cases begins with
  | literal kind =>
    simp only [List.mem_cons, List.not_mem_nil, or_false] at kind
    rcases kind with kind | kind <;> simp [kind, Token.isWord, Token.is]
  | group kind => simp [kind, Token.isWord, Token.is]
  | @name token _ kind free =>
    have other : token.text ≠ text := fun same => free (same ▸ front)
    simp [kind, other, Token.isWord, Token.is]

theorem oneOfWords_eq_none (begins : BeginsOperand tokens) (texts : List String)
    (front : ∀ text ∈ texts, text ∈ frontWords) : oneOfWords texts tokens = none := by
  cases begins with
  | literal kind =>
    simp only [List.mem_cons, List.not_mem_nil, or_false] at kind
    rcases kind with kind | kind <;> simp [kind]
  | group kind => simp [kind]
  | @name token _ kind free =>
    have other : token.text ∉ texts := fun member => free (front _ member)
    simp [kind, other]

theorem oneOfSigns_eq_none (begins : BeginsOperand tokens) {texts : List String}
    (marks : "\x7b" ∉ texts ∧ "[" ∉ texts) : oneOfSigns texts tokens = none := by
  cases begins with
  | literal kind =>
    simp only [List.mem_cons, List.not_mem_nil, or_false] at kind
    rcases kind with kind | kind <;> simp [kind]
  | group kind opens =>
    simp only [List.mem_cons, List.not_mem_nil, or_false] at opens
    rcases opens with text | text <;> simp [kind, text, marks]
  | name kind => simp [kind]

/-- No parameters and no type stand at the front. -/
theorem ahead_eq_false (begins : BeginsOperand tokens) :
    tokens.head?.any (fun token => token.isSign "(" || token.isSign "<") = false := by
  cases begins with
  | literal kind =>
    simp only [List.mem_cons, List.not_mem_nil, or_false] at kind
    rcases kind with kind | kind <;> simp [kind, Token.isSign, Token.is]
  | group kind opens =>
    simp only [List.mem_cons, List.not_mem_nil, or_false] at opens
    rcases opens with same | same <;> simp [kind, same, Token.isSign, Token.is]
  | name kind => simp [kind, Token.isSign, Token.is]

theorem angle_eq_none (begins : BeginsOperand tokens) : sign "<" tokens = none := by
  have ahead := begins.ahead_eq_false
  cases tokens with
  | nil => rfl
  | cons token tokens =>
    simp only [List.head?_cons, Option.any_some, Bool.or_eq_false_iff] at ahead
    simp [ahead.2]

theorem arrowless (begins : BeginsOperand tokens) {name : String} {more : List Token}
    (found : anyWord tokens = some (name, more)) : sign "=>" more = none := by
  cases begins with
  | literal kind =>
    simp only [List.mem_cons, List.not_mem_nil, or_false] at kind
    rcases kind with kind | kind <;> simp [kind] at found
  | group kind => simp [kind] at found
  | name kind _ arrowless =>
    simp only [anyWord_cons, kind, if_true, Option.some.injEq, Prod.mk.injEq] at found
    rw [← found.2, arrowless]

end BeginsOperand

namespace Rules

variable {rules : Rules} {place : Place} {tokens rest : List Token}

@[simp] theorem exprAt_upTo (depth : Nat) (place : Place) (tokens : List Token) :
    (upTo (depth + 1)).exprAt place tokens = exprRule (upTo depth) place tokens := rfl

@[simp] theorem expr_upTo (depth : Nat) (tokens : List Token) :
    (upTo (depth + 1)).expr tokens = exprRule (upTo depth) .enclosed tokens := rfl

theorem operandStep_stops (stops : Stops tokens) (start : List Token) (value : Expr) :
    operandStep rules start value tokens = none := by
  obtain rfl | ⟨text, among, gap, line, more, rfl⟩ := stops.cases
  · simp [operandStep, callArguments, subscript, substitutions, sameLine, typeArguments]
  · simp only [List.mem_cons, List.not_mem_nil, or_false] at among
    rcases among with rfl | rfl | rfl | rfl | rfl <;>
      simp [operandStep, callArguments, subscript, substitutions, sameLine, typeArguments]

theorem chainStep_stops (stops : Stops tokens) (start : List Token) (chain : Chain) :
    chainStep rules place start chain tokens = none := by
  obtain rfl | ⟨text, among, gap, line, more, rfl⟩ := stops.cases
  · cases place <;> simp [chainStep, binaryOperator, sameLine]
  · simp only [List.mem_cons, List.not_mem_nil, or_false] at among
    rcases among with rfl | rfl | rfl | rfl | rfl <;>
      cases place <;> simp [chainStep, binaryOperator, sameLine]

theorem arrowHead_eq_none (begins : BeginsOperand tokens) : arrowHead rules tokens = none := by
  simp +contextual [arrowHead, begins.ahead_eq_false, begins.arrowless]

theorem arrowFunction_eq_none (begins : BeginsOperand tokens) (place : Place) :
    arrowFunction rules place tokens = none := by
  simp [arrowFunction, arrowHead_eq_none begins, begins.word_eq_none "async" (by decide)]

theorem yieldValue_eq_none (begins : BeginsOperand tokens) (place : Place) :
    yieldValue rules place tokens = none := by
  simp [yieldValue, asForm, withSource, begins.word_eq_none "yield" (by decide)]

theorem prefixMark_eq_none (begins : BeginsOperand tokens) : prefixMark rules tokens = none := by
  simp [prefixMark, begins.word_eq_none "await" (by decide),
    begins.oneOfSigns_eq_none,
    begins.oneOfWords_eq_none ["typeof", "void", "delete"] (by decide), begins.angle_eq_none]

theorem newObject_eq_none (begins : BeginsOperand tokens) : newObject rules tokens = none := by
  simp [newObject, asForm, withSource, begins.word_eq_none "new" (by decide)]

/-- An operand with steps behind it, read up to where it ends. -/
theorem operand_of_primary (begins : BeginsOperand tokens) {first value : Expr}
    {behind : List Token} (read : primary rules tokens = some (first, behind))
    (steps : Steps (operandStep rules tokens) first behind value rest)
    (stops : Stops rest) : operand rules tokens = some (value, rest) := by
  have unmarked : oneOfSigns ["++", "--"] rest = none := by
    obtain rfl | ⟨text, among, gap, line, more, rfl⟩ := stops.cases
    · rfl
    · simp only [List.mem_cons, List.not_mem_nil, or_false] at among
      rcases among with rfl | rfl | rfl | rfl | rfl <;> simp
  have ends (start : List Token) : (sameLine rest).bind (fun found =>
      (oneOfSigns ["++", "--"] found.2).bind fun found =>
        some (Expr.other .update (Token.sourceUpTo start found.2), found.2)) = none := by
    by_cases feeds : rest.head?.any Token.beginsLine = true <;> simp [sameLine, feeds, unmarked]
  simp [operand, newObject_eq_none begins, read, steps.iterate (operandStep_stops stops _ _), ends]

theorem unary_of_operand (begins : BeginsOperand tokens) {value : Expr}
    (read : operand rules tokens = some (value, rest)) : unary rules tokens = some (value, rest) := by
  simp [unary, withSource, many_of_none (prefixMark_eq_none begins), read]

theorem chain_of_operand (begins : BeginsOperand tokens) {value : Expr}
    (read : operand rules tokens = some (value, rest)) (stops : Stops rest) :
    chain rules place tokens = some (value, rest) := by
  have ends := iterateUpTo_of_none (@chainStep_stops rules place _ stops tokens { value })
    rest.length
  simp [chain, unary_of_operand begins read, iterate, ends]

theorem operation_of_operand (begins : BeginsOperand tokens) {value : Expr}
    (read : operand rules tokens = some (value, rest)) (stops : Stops rest) :
    operation rules place tokens = some (value, rest) := by
  have unasked : sign "?" rest = none ∧ assignmentOperator rest = none := by
    obtain rfl | ⟨text, among, gap, line, more, rfl⟩ := stops.cases
    · simp [assignmentOperator]
    · simp only [List.mem_cons, List.not_mem_nil, or_false] at among
      rcases among with rfl | rfl | rfl | rfl | rfl <;> simp [assignmentOperator]
  by_cases assignable : value.isAssignable = true <;>
    simp [operation, chain_of_operand begins read stops, unasked, assignable]

/-- An expression that is an operand and nothing else. -/
theorem exprRule_of_operand (begins : BeginsOperand tokens) {value : Expr}
    (read : operand rules tokens = some (value, rest)) (stops : Stops rest) (place : Place) :
    exprRule rules place tokens = some (value, rest) := by
  simp [exprRule, arrowFunction_eq_none begins, yieldValue_eq_none begins,
    operation_of_operand begins read stops]

/-- A primary expression on its own. -/
theorem exprRule_of_primary (begins : BeginsOperand tokens) {value : Expr}
    (read : primary rules tokens = some (value, rest)) (stops : Stops rest) (place : Place) :
    exprRule rules place tokens = some (value, rest) :=
  exprRule_of_operand begins
    (operand_of_primary begins read (.refl _ _) stops)
    stops place

theorem primary_string {token : Token} (kind : token.kind = .string) :
    primary rules (token :: rest) = some (.string (withoutQuotes token.text), rest) := by
  simp [primary, kind]

theorem primary_number {token : Token} (kind : token.kind = .number) :
    primary rules (token :: rest) = some (.number token.text, rest) := by
  simp [primary, kind]

/-- Words that stand for no primary expression of their own. -/
def operandWords : List String := ["class", "function", "import", "new", "async"]

theorem primary_word {token : Token} (kind : token.kind = .word)
    (free : token.text ∉ operandWords) : primary rules (token :: rest) = wordOperand (token :: rest) := by
  simp only [operandWords, List.mem_cons, List.not_mem_nil, or_false, not_or] at free
  simp [primary, asForm, withSource, arrayLiteral, objectLiteral, substitutions, functionValue,
    functionExpression, classExpression, kind, free, Token.isSign, Token.isWord, Token.is, sameLine]

theorem primary_constant {token : Token} (kind : token.kind = .word) {value : Constant}
    (same : token.text = value.word) :
    primary rules (token :: rest) = some (.constant value, rest) := by
  rw [primary_word kind (by cases value <;> rw [same] <;> decide)]
  cases value <;> simp [wordOperand, kind, same, expressionKeywords, Constant.word, Constant.ofWord?, Constant.all]

theorem primary_name {token : Token} (kind : token.kind = .word)
    (free : token.text ∉ reservedWords) :
    primary rules (token :: rest) = some (.identifier token.text, rest) := by
  simp only [reservedWords, List.mem_cons, List.not_mem_nil, or_false, not_or] at free
  rw [primary_word kind (by simp [operandWords, free])]
  simp [wordOperand, kind, expressionKeywords, Constant.ofWord?, Constant.all, Constant.word, free, Ne.symm]

theorem primary_array (token : Token) (opens : token.kind = .sign ∧ token.text = "[")
    {elements : List Expr} (read : Rules.elements rules "]" tokens = some (elements, rest)) :
    primary rules (token :: tokens) = some (.array elements, rest) := by
  simp [primary, asForm, withSource, arrayLiteral, substitutions, opens, read, Token.isSign, Token.is]

theorem primary_object (token : Token) (opens : token.kind = .sign ∧ token.text = "\x7b")
    {entries : List (Option (Entry Expr))}
    (read : items "\x7d" (objectEntry rules) tokens = some (entries, rest)) :
    primary rules (token :: tokens) = some (.object (entries.filterMap id), rest) := by
  simp [primary, asForm, withSource, arrayLiteral, objectLiteral, substitutions, opens, read,
    Token.isSign, Token.is]

/-- The closing sign of a group, behind a gap. -/
def closing (gap : List Char) (text : String) : Token := { kind := .sign, text, gap }

theorem elements_pieces (text : String) (other : text ≠ ",") (gap : List Char)
    {pieces : List (Piece (Option Expr))} {values : List Expr}
    (same : pieces.map (·.value) = values.map some)
    (fits : ∀ piece ∈ pieces, piece.Fits (element rules) (closing gap text)) (rest : List Token) :
    elements rules text (Piece.all pieces ++ closing gap text :: rest) = some (values, rest) := by
  have read := items_pieces (closing gap text) rfl other fits rest
  rw [same] at read
  simp only [closing] at read ⊢
  simp [elements, read]

theorem objectEntries_pieces (gap : List Char) {pieces : List (Piece (Option (Entry Expr)))}
    {entries : List (Entry Expr)} (same : pieces.map (·.value) = entries.map some)
    (fits : ∀ piece ∈ pieces, piece.Fits (objectEntry rules) (closing gap "\x7d"))
    (rest : List Token) :
    items "\x7d" (objectEntry rules) (Piece.all pieces ++ closing gap "\x7d" :: rest) =
      some (entries.map some, rest) := by
  rw [← same]
  exact items_pieces (closing gap "\x7d") rfl (by simp [closing]) fits rest

theorem operandStep_member (start : List Token) (value : Expr) (name : String) (rest : List Token) :
    operandStep rules start value
      ({ kind := .sign, text := "." } :: { kind := .word, text := name } :: rest) =
        some (.member value name, rest) := by
  simp [operandStep, memberName]

theorem operandStep_call (start : List Token) (value : Expr)
    {arguments : List Expr} (read : elements rules ")" tokens = some (arguments, rest)) :
    operandStep rules start value ({ kind := .sign, text := "(" } :: tokens) =
      some (.call value arguments, rest) := by
  simp [operandStep, callArguments, read]

theorem exprRule_member (rules : Rules) {token : Token} (kind : token.kind = .word)
    (free : token.text ∉ reservedWords) (column : String) (stops : Stops rest) (place : Place) :
    exprRule rules place
      (token :: { kind := .sign, text := "." } :: { kind := .word, text := column } :: rest) =
        some (.member (.identifier token.text) column, rest) := by
  have front : ∀ word ∈ frontWords, word ∈ reservedWords := by decide
  have begins : BeginsOperand (token :: { kind := .sign, text := "." } ::
      { kind := .word, text := column } :: rest) :=
    .name kind (fun member => free (front _ member)) (by simp)
  have operand : operand rules (token :: { kind := .sign, text := "." } ::
      { kind := .word, text := column } :: rest) = _ :=
    operand_of_primary begins (primary_name kind free)
      (.head (operandStep_member _ _ column rest) (by simp only [List.length_cons]; omega)
        (.refl _ _)) stops
  exact exprRule_of_operand begins operand stops place

/-- The head of an arrow function without parameters. -/
theorem arrowHead_empty (gap behind : List Char) (rest : List Token) :
    arrowHead rules ({ kind := .sign, text := "(", gap } :: { kind := .sign, text := ")" } ::
      { kind := .sign, text := "=>", gap := behind } :: rest) = some ([], rest) := by
  simp [arrowHead, arrowHead.endsAsArrow, typeParameters, parameters, returnAnnotation, items,
    itemsUpTo, Token.behindGroup, Token.depthBehind]

/-- An arrow function without parameters, the body of which is no block. -/
theorem exprRule_arrow {gap behind : List Char} {value : Expr} {place : Place}
    (unblocked : sign "\x7b" tokens = none) (body : rules.exprAt place tokens = some (value, rest)) :
    exprRule rules place ({ kind := .sign, text := "(", gap } :: { kind := .sign, text := ")" } ::
      { kind := .sign, text := "=>", gap := behind } :: tokens) =
        some (.arrow [] value, rest) := by
  have ahead : tokens.head?.any (·.isSign "\x7b") = false := by
    cases tokens with
    | nil => rfl
    | cons token tokens => simpa using unblocked
  simp [exprRule, arrowFunction, arrowHead_empty, arrowBody, withSource, block, unblocked, ahead, body]

end Rules

end SchemaAtlas.Script
