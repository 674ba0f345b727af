import SchemaAtlas.Fluent.Written
import SchemaAtlas.Proofs.Pairs
import SchemaAtlas.Proofs.Script.Expr
import SchemaAtlas.Proofs.Script.Lexer

/-!
Texts that are read as a value: how they are split into tokens and what a reader makes of those, with
one rule for each way in which such texts are put together.
-/

set_option autoImplicit false

namespace SchemaAtlas.Script

open Fluent.Written Reader Text

/-- A first token that is not taken for the end or for a gap of a list. -/
def Token.BeginsItem (token : Token) : Prop :=
  token.kind = .sign → token.text ∈ ["\x7b", "[", "("]

theorem Token.BeginsItem.isSign_eq_false {token : Token} (item : token.BeginsItem) (text : String)
    (other : text ∉ ["\x7b", "[", "("]) : token.isSign text = false := by
  by_cases kind : token.kind = .sign
  · have different : token.text ≠ text := fun same => other (same ▸ item kind)
    simp [Token.isSign, Token.is, different]
  · simp [Token.isSign, Token.is, kind]

/-- A text is split into tokens that are read as a value, whatever delimiter follows. -/
structure ReadsAs {α : Type} (reader : Rules → Reader α) (cs : List Char)
    (tokens : List Char → List Token) (value : α) : Prop where
  begins (gap : List Char) : ∃ first more, tokens gap = first :: more ∧ first.BeginsItem
  spells {rest : List Char} {behind : List Token} (stops : Delimited rest)
    (later : Spells [] rest behind) (gap : List Char) :
    Spells gap (cs ++ rest) (tokens gap ++ behind)
  reads (gap : List Char) {depth : Nat} (enough : (tokens gap).length ≤ depth) {rest : List Token}
    (stops : Stops rest) : reader (Rules.upTo depth) (tokens gap ++ rest) = some (value, rest)

def Reads {α : Type} (reader : Rules → Reader α) (cs : List Char) (value : α) : Prop :=
  ∃ tokens, ReadsAs reader cs tokens value

/-- A name that is a word of a script and means nothing else there. -/
structure IsName (name : String) : Prop where
  word : IsWordText name.toList
  undigited : ∀ c ∈ name.toList.head?, c.isDigit = false
  free : name ∉ reservedWords

instance (name : String) : Decidable (IsName name) :=
  decidable_of_iff
    (IsWordText name.toList ∧ (∀ c ∈ name.toList.head?, c.isDigit = false) ∧ name ∉ reservedWords)
    ⟨fun ⟨word, undigited, free⟩ => ⟨word, undigited, free⟩,
      fun ⟨word, undigited, free⟩ => ⟨word, undigited, free⟩⟩

theorem Spells.name (gap : List Char) {rest : List Char} {name : String} {tokens : List Token}
    (isName : IsName name) (stops : EndsName rest) (later : Spells [] rest tokens) :
    Spells gap (name.toList ++ rest) ({ kind := .word, text := name, gap } :: tokens) := by
  simpa using Spells.word gap isName.word isName.undigited stops later

theorem IsName.begins {name : String} (isName : IsName name) (rest : List Char) :
    ∀ c ∈ (name.toList ++ rest).head?, isNamePart c = true ∧ c.isDigit = false := by
  intro c first
  rw [List.head?_append_of_ne_nil _ isName.word.1] at first
  exact ⟨isNamePart_of_isWord (isName.word.2 c (List.mem_of_mem_head? first)),
    isName.undigited c first⟩

theorem Reads.element {cs : List Char} {value : Expr} (reads : Reads (·.expr) cs value) :
    Reads Rules.element cs (some value) := by
  obtain ⟨tokens, begins, spells, reads⟩ := reads
  refine ⟨tokens, begins, spells, fun gap depth enough rest stops => ?_⟩
  have read := reads gap enough stops
  obtain ⟨first, more, same, item⟩ := begins gap
  have comma := item.isSign_eq_false "," (by decide)
  have dots := item.isSign_eq_false "..." (by decide)
  rw [same, List.cons_append] at read ⊢
  simp [Rules.element, Rules.hole, comma, dots, read]

/-- A property of an object, under a name. -/
theorem Reads.property {cs : List Char} {value : Expr} (reads : Reads (·.expr) cs value)
    {key : String} (isName : IsName key) :
    Reads Rules.objectEntry (key.toList ++ ':' :: ' ' :: cs) (some (.property key value)) := by
  obtain ⟨tokens, begins, spells, reads⟩ := reads
  refine ⟨fun gap => { kind := .word, text := key, gap } :: { kind := .sign, text := ":" } ::
    tokens [' '], fun gap => ?_, fun stops later gap => ?_, fun gap depth enough rest stops => ?_⟩
  · exact ⟨_, _, rfl, by simp [Token.BeginsItem]⟩
  · have value := Spells.solo [] ':' (by decide)
      (.space _ (spells stops later ([] ++ [' '])))
    simpa [List.append_assoc] using Spells.name gap isName (.cons (by decide) _) value
  · have read := reads [' '] (Nat.le_of_succ_le (Nat.le_of_succ_le enough)) stops
    simp [Rules.objectEntry, Rules.hole, Rules.propertyName, read]

section Pieces

variable {α : Type} {reader : Rules → Reader α}

/-- A piece of tokens of a text that is read as its value. -/
def IsReadPiece (reader : Rules → Reader α) (piece : Piece α) : Prop :=
  ∃ tokens cs gap, piece.tokens = tokens gap ∧ ReadsAs reader cs tokens piece.value

theorem IsReadPiece.fits {piece : Piece α} (read : IsReadPiece reader piece) {depth : Nat}
    (enough : piece.tokens.length ≤ depth) {text : String} (closes : text ∈ [")", "]", "\x7d"])
    (gap : List Char) : piece.Fits (reader (Rules.upTo depth)) (Rules.closing gap text) := by
  obtain ⟨tokens, cs, front, same, begins, spells, reads⟩ := read
  have other : text ∉ ["\x7b", "[", "("] := by
    simp only [List.mem_cons, List.not_mem_nil, or_false] at closes
    rcases closes with rfl | rfl | rfl <;> decide
  constructor
  · obtain ⟨first, more, split, item⟩ := begins front
    exact ⟨first, more, same.trans split, item.isSign_eq_false _ other⟩
  · intro stop member rest
    rw [same] at enough ⊢
    refine reads front enough ?_
    rintro _ ⟨⟩
    simp only [List.mem_cons, List.not_mem_nil, or_false] at member closes ⊢
    rcases member with rfl | rfl
    · exact ⟨rfl, .inr (.inr closes)⟩
    · exact ⟨rfl, .inl rfl⟩

theorem delimited_behind {rest : List Char} (stops : Delimited rest) (texts : List (List Char)) :
    Delimited ((texts.flatMap fun item => ',' :: ' ' :: item) ++ rest) := by
  cases texts with
  | nil => exact stops
  | cons => exact .cons (by decide) _

/-- The text of pieces behind the first. -/
theorem exists_pieces_behind {texts : List (List Char)} {values : List α}
    (each : List.Forall₂ (Reads reader) texts values) :
    ∃ pieces : List (Piece α), pieces.map (·.value) = values ∧
      (∀ piece ∈ pieces, IsReadPiece reader piece) ∧
      ∀ {rest : List Char} {behind : List Token}, Delimited rest → Spells [] rest behind →
        Spells [] ((texts.flatMap fun item => ',' :: ' ' :: item) ++ rest)
          (Piece.behind pieces ++ behind) := by
  induction each with
  | nil => exact ⟨[], rfl, by simp, fun _ later => later⟩
  | @cons text value texts values first _ ih =>
    obtain ⟨pieces, same, read, spelled⟩ := ih
    obtain ⟨tokens, readsAs⟩ := first
    refine ⟨{ tokens := tokens [' '], value } :: pieces, by simp [same], ?_, fun stops later => ?_⟩
    · rintro piece (_ | ⟨_, member⟩)
      · exact ⟨tokens, text, _, rfl, readsAs⟩
      · exact read piece member
    · have here := readsAs.spells (delimited_behind stops texts) (spelled stops later) ([] ++ [' '])
      simpa [Piece.behind, comma] using Spells.solo [] ',' (by decide) (.space _ here)

/-- A text of items with commas between them is split into pieces that are read as the items. -/
theorem exists_pieces {texts : List (List Char)} {values : List α}
    (each : List.Forall₂ (Reads reader) texts values) {lead : List Char}
    (thin : lead = [] ∨ lead = [' ']) :
    ∃ pieces : List (Piece α), pieces.map (·.value) = values ∧
      (∀ piece ∈ pieces, IsReadPiece reader piece) ∧
      ∀ {rest : List Char} {behind : List Token}, Delimited rest → Spells [] rest behind →
        Spells [] (commaText lead texts ++ rest) (Piece.all pieces ++ behind) := by
  cases each with
  | nil => exact ⟨[], rfl, by simp, fun _ later => later⟩
  | @cons text value texts values first others =>
    obtain ⟨pieces, same, read, spelled⟩ := exists_pieces_behind others
    obtain ⟨tokens, readsAs⟩ := first
    refine ⟨{ tokens := tokens lead, value } :: pieces, by simp [same], ?_, fun stops later => ?_⟩
    · rintro piece (_ | ⟨_, member⟩)
      · exact ⟨tokens, text, _, rfl, readsAs⟩
      · exact read piece member
    · have here := readsAs.spells (delimited_behind stops texts) (spelled stops later) lead
      have whole := List.append_assoc (text ++ texts.flatMap fun item => ',' :: ' ' :: item)
      rcases thin with rfl | rfl
      · simpa [commaText, Piece.all] using here
      · simpa [commaText, Piece.all] using Spells.space [] here

end Pieces

theorem enclosed_enough {opening ends : Token} {inner : List Token} {depth : Nat}
    (enough : (opening :: (inner ++ [ends])).length ≤ depth) :
    ∃ inside, depth = inside + 1 ∧ inner.length ≤ inside := by
  simp only [List.length_cons, List.length_append, List.length_nil] at enough
  exact ⟨depth - 1, by omega, by omega⟩

theorem Reads.array {texts : List (List Char)} {values : List Expr}
    (each : List.Forall₂ (Reads (·.expr)) texts values) :
    Reads (·.expr) ('[' :: (commaText [] texts ++ [']'])) (.array values) := by
  have elements : List.Forall₂ (Reads Rules.element) texts (values.map some) :=
    List.forall₂_map_right_iff.mpr (each.imp fun _ _ => Reads.element)
  obtain ⟨pieces, same, read, spelled⟩ := exists_pieces elements (.inl rfl)
  refine ⟨fun gap => { kind := .sign, text := "[", gap } ::
    (Piece.all pieces ++ [Rules.closing [] "]"]), fun gap => ?_, fun stops later gap => ?_,
    fun gap depth enough rest stops => ?_⟩
  · exact ⟨_, _, rfl, by simp [Token.BeginsItem]⟩
  · have ends := Spells.solo [] ']' (by decide) later
    have whole := Spells.solo gap '[' (by decide)
      (spelled (.cons (by decide) _) ends)
    simpa [Rules.closing] using whole
  · obtain ⟨inside, rfl, deep⟩ := enclosed_enough enough
    have inner := Rules.elements_pieces "]" (by decide) [] same
      (fun piece member => (read piece member).fits
        ((Piece.length_tokens_le member).trans deep) (by decide) []) rest
    have primary := Rules.primary_array { kind := .sign, text := "[", gap } ⟨rfl, rfl⟩ inner
    simpa using Rules.exprRule_of_primary (.group rfl (by simp)) primary stops .enclosed

theorem Reads.object {texts : List (List Char)} {entries : List (Entry Expr)}
    (each : List.Forall₂ (Reads Rules.objectEntry) texts (entries.map some)) :
    Reads (·.expr) ('{' :: (commaText [' '] texts ++ [' ', '}'])) (.object entries) := by
  obtain ⟨pieces, same, read, spelled⟩ := exists_pieces each (.inr rfl)
  refine ⟨fun gap => { kind := .sign, text := "\x7b", gap } ::
    (Piece.all pieces ++ [Rules.closing [' '] "\x7d"]), fun gap => ?_, fun stops later gap => ?_,
    fun gap depth enough rest stops => ?_⟩
  · exact ⟨_, _, rfl, by simp [Token.BeginsItem]⟩
  · have ends := Spells.solo ([] ++ [' ']) '}' (by decide) later
    have whole := Spells.solo gap '{' (by decide)
      (spelled (.cons (by decide) _) (.space _ ends))
    simpa [Rules.closing] using whole
  · obtain ⟨inside, rfl, deep⟩ := enclosed_enough enough
    have inner := Rules.objectEntries_pieces [' '] same
      (fun piece member => (read piece member).fits
        ((Piece.length_tokens_le member).trans deep) (by decide) [' ']) rest
    have primary := Rules.primary_object { kind := .sign, text := "\x7b", gap }
      ⟨rfl, rfl⟩ inner
    simpa using Rules.exprRule_of_primary (.group rfl (by simp)) primary stops .enclosed

theorem Reads.of_token (kind : TokenKind) {cs : List Char} {value : Expr} (unsigned : kind ≠ .sign)
    (begins : ∀ gap {rest}, Stops rest →
      BeginsOperand ({ kind, text := String.ofList cs, gap } :: rest))
    (spells : ∀ {gap rest tokens}, Delimited rest → Spells [] rest tokens →
      Spells gap (cs ++ rest) ({ kind, text := String.ofList cs, gap } :: tokens))
    (reads : ∀ rules gap rest,
      Rules.primary rules ({ kind, text := String.ofList cs, gap } :: rest) = some (value, rest)) :
    Reads (·.expr) cs value := by
  refine ⟨fun gap => [{ kind, text := String.ofList cs, gap }], fun gap => ?_,
    fun stops later gap => spells stops later, fun gap depth enough rest stops => ?_⟩
  · exact ⟨_, _, rfl, fun sign => absurd sign unsigned⟩
  · obtain ⟨inside, rfl⟩ := Nat.exists_eq_add_one.mpr (Nat.zero_lt_of_lt enough)
    exact Rules.exprRule_of_primary (begins gap stops) (reads _ gap rest) stops .enclosed

theorem Reads.string {quote : Char} {inside : List Char} (quotes : quote = '\'' ∨ quote = '"')
    (unquoted : quote ∉ inside) (plain : ∀ c ∈ inside, c ≠ '\n' ∧ c ≠ '\r' ∧ c ≠ '\\') :
    Reads (·.expr) (quote :: (inside ++ [quote])) (.string (String.ofList inside)) := by
  refine .of_token .string (by simp) (fun gap _ _ => .literal (by simp))
    (fun _ later => ?_) fun rules gap rest => ?_
  · simpa using Spells.string quotes unquoted plain later
  · rw [Rules.primary_string rfl]
    simp [Rules.withoutQuotes]

theorem Reads.number {cs : List Char} (numeral : IsNumeral cs) :
    Reads (·.expr) cs (.number (String.ofList cs)) :=
  .of_token .number (by simp) (fun gap _ _ => .literal (by simp))
    (fun stops later => .number numeral stops later) fun rules gap rest => Rules.primary_number rfl

theorem Reads.constant (value : Constant) :
    Reads (·.expr) value.word.toList (.constant value) := by
  have word : IsWordText value.word.toList ∧ (∀ c ∈ value.word.toList.head?, c.isDigit = false) ∧
      value.word ∉ frontWords := by
    cases value <;> decide
  obtain ⟨isWordText, undigited, free⟩ := word
  refine .of_token .word (by simp)
    (fun gap _ stops => .name rfl (by simpa using free) stops.arrowless)
    (fun stops later => .word _ isWordText undigited stops.endsName later) fun rules gap rest => ?_
  exact Rules.primary_constant rfl (String.ofList_toList)

/-- A text that carries a value on through steps: members and calls. -/
structure StepsAs (cs : List Char) (tokens : List Token) (carry : Expr → Expr) : Prop where
  spells {rest : List Char} {behind : List Token} (later : Spells [] rest behind) :
    Spells [] (cs ++ rest) (tokens ++ behind)
  steps {depth : Nat} (enough : tokens.length ≤ depth) (start : List Token) (value : Expr)
    (rest : List Token) :
    Steps (Rules.operandStep (Rules.upTo depth) start) value (tokens ++ rest) (carry value) rest
  arrowless {rest : List Token} (free : sign "=>" rest = none) : sign "=>" (tokens ++ rest) = none

def ReadsSteps (cs : List Char) (carry : Expr → Expr) : Prop := ∃ tokens, StepsAs cs tokens carry

theorem ReadsSteps.nil : ReadsSteps [] id :=
  ⟨[], fun later => later, fun _ _ _ _ => .refl _ _, fun free => free⟩

theorem ReadsSteps.append {cs ds : List Char} {first second : Expr → Expr}
    (left : ReadsSteps cs first) (right : ReadsSteps ds second) :
    ReadsSteps (cs ++ ds) (second ∘ first) := by
  obtain ⟨tokens, spells, steps, arrowless⟩ := left
  obtain ⟨others, spelled, more, free⟩ := right
  refine ⟨tokens ++ others, fun later => ?_, fun enough start value rest => ?_, fun last => ?_⟩
  · simpa using spells (spelled later)
  · rw [List.length_append] at enough
    rw [List.append_assoc]
    exact (steps (by omega) start value _).trans (more (by omega) start (first value) rest)
  · simpa using arrowless (free last)

theorem ReadsSteps.call {texts : List (List Char)} {arguments : List Expr}
    (each : List.Forall₂ (Reads (·.expr)) texts arguments) :
    ReadsSteps ('(' :: (commaText [] texts ++ [')'])) (.call · arguments) := by
  have elements : List.Forall₂ (Reads Rules.element) texts (arguments.map some) :=
    List.forall₂_map_right_iff.mpr (each.imp fun _ _ => Reads.element)
  obtain ⟨pieces, same, read, spelled⟩ := exists_pieces elements (.inl rfl)
  refine ⟨{ kind := .sign, text := "(" } :: (Piece.all pieces ++ [Rules.closing [] ")"]),
    fun later => ?_, fun {depth} enough start value rest => ?_, fun _ => by simp⟩
  · have ends := Spells.solo [] ')' (by decide) later
    have whole := Spells.solo [] '(' (by decide)
      (spelled (.cons (by decide) _) ends)
    simpa [Rules.closing] using whole
  · simp only [List.length_cons, List.length_append] at enough
    have deep : (Piece.all pieces).length ≤ depth := by omega
    have inner := Rules.elements_pieces ")" (by decide) [] same
      (fun piece member => (read piece member).fits
        ((Piece.length_tokens_le member).trans deep) (by decide) []) rest
    have here := Rules.operandStep_call start value inner
    refine .head ?_ ?_ (.refl _ rest)
    · simpa using here
    · simp
      omega

/-- A call of a method. -/
theorem ReadsSteps.method {name : String} (isName : IsName name) {texts : List (List Char)}
    {arguments : List Expr} (each : List.Forall₂ (Reads (·.expr)) texts arguments) :
    ReadsSteps ('.' :: (name.toList ++ '(' :: (commaText [] texts ++ [')'])))
      fun value => .call (.member value name) arguments := by
  obtain ⟨tokens, spells, steps, -⟩ := ReadsSteps.call each
  refine ⟨{ kind := .sign, text := "." } :: { kind := .word, text := name } :: tokens,
    fun later => ?_, fun {depth} enough start value rest => ?_, fun _ => by simp⟩
  · have named := Spells.name [] isName (.cons (by decide) _) (spells later)
    simpa using Spells.point [] (isName.begins _) named
  · simp only [List.length_cons] at enough
    refine .head (Rules.operandStep_member start value name (tokens ++ rest)) ?_
      (steps (by omega) start (.member value name) rest)
    simp only [List.cons_append, List.length_cons, List.length_append]
    omega

theorem IsName.beginsOperand {name : String} (isName : IsName name) (gap : List Char)
    {more : List Token} (arrowless : sign "=>" more = none) :
    BeginsOperand ({ kind := .word, text := name, gap } :: more) := by
  have front : ∀ word ∈ frontWords, word ∈ reservedWords := by decide
  exact .name rfl (fun member => isName.free (front name member)) arrowless

/-- A function that is called, with steps behind the call. -/
theorem Reads.called {name : String} (isName : IsName name) {texts : List (List Char)}
    {arguments : List Expr} (each : List.Forall₂ (Reads (·.expr)) texts arguments)
    {cs : List Char} {carry : Expr → Expr} (more : ReadsSteps cs carry) (place : Place) :
    Reads (·.exprAt place) (name.toList ++ '(' :: (commaText [] texts ++ ')' :: cs))
      (carry (.call (.identifier name) arguments)) := by
  obtain ⟨tokens, spells, steps, arrowless⟩ := (ReadsSteps.call each).append more
  refine ⟨fun gap => { kind := .word, text := name, gap } :: tokens, fun gap => ?_,
    fun stops later gap => ?_, fun gap depth enough rest stops => ?_⟩
  · exact ⟨_, _, rfl, by simp [Token.BeginsItem]⟩
  · simpa using Spells.name gap isName (.cons (by decide) _) (spells later)
  · obtain ⟨inside, rfl⟩ := Nat.exists_eq_add_one.mpr (Nat.zero_lt_of_lt enough)
    have begins := isName.beginsOperand gap (arrowless stops.arrowless)
    have operand := Rules.operand_of_primary begins (Rules.primary_name rfl isName.free)
      (steps (Nat.le_of_succ_le_succ enough) _ (.identifier name) rest) stops
    exact Rules.exprRule_of_operand begins operand stops place

/-- A function without parameters that gives a member. -/
theorem Reads.arrow {table column : String} (isName : IsName table) (isMember : IsName column) :
    Reads (·.expr) ("() => ".toList ++ table.toList ++ '.' :: column.toList)
      (.arrow [] (.member (.identifier table) column)) := by
  refine ⟨fun gap => [{ kind := .sign, text := "(", gap }, { kind := .sign, text := ")" },
    { kind := .sign, text := "=>", gap := [' '] }, { kind := .word, text := table, gap := [' '] },
    { kind := .sign, text := "." }, { kind := .word, text := column }], fun gap => ?_,
    fun stops later gap => ?_, fun gap depth enough rest stops => ?_⟩
  · exact ⟨_, _, rfl, by simp [Token.BeginsItem]⟩
  · have member := Spells.point [] (isMember.begins _)
      (Spells.name _ isMember stops.endsName later)
    have named := Spells.name ([] ++ [' ']) isName (.cons (by decide) _) member
    have arrow := Spells.solo [] ')' (by decide)
      (.space _ (Spells.arrow ([] ++ [' ']) (.space _ named)))
    simpa using Spells.solo gap '(' (by decide) arrow
  · simp only [List.length_cons, List.length_nil] at enough
    obtain ⟨inside, rfl⟩ : ∃ inside, depth = inside + 2 := ⟨depth - 2, by omega⟩
    exact Rules.exprRule_arrow (by simp)
      (Rules.exprRule_member (Rules.upTo inside) rfl isName.free column stops .enclosed)

end SchemaAtlas.Script
