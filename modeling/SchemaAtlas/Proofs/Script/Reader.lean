import Mathlib.Data.List.Basic
import SchemaAtlas.Script.Reader

/-!
What the readers of tokens do with the tokens in front of them.
-/

set_option autoImplicit false

namespace SchemaAtlas.Script

namespace Token

@[simp] theorem isSign_mk (kind : TokenKind) (text other : String) (gap : List Char) (line : Nat) :
    isSign { kind, text, gap, line } other = (kind = .sign && text = other) := rfl

@[simp] theorem isWord_mk (kind : TokenKind) (text other : String) (gap : List Char) (line : Nat) :
    isWord { kind, text, gap, line } other = (kind = .word && text = other) := rfl

end Token

namespace Reader

variable {α β : Type}

@[simp] theorem pure_apply (a : α) (tokens : List Token) :
    (pure a : Reader α) tokens = some (a, tokens) := rfl

@[simp] theorem failure_apply (tokens : List Token) : (failure : Reader α) tokens = none := rfl

@[simp] theorem bind_apply (reader : Reader α) (next : α → Reader β) (tokens : List Token) :
    (reader >>= next) tokens = (reader tokens).bind fun found => next found.1 found.2 := rfl

@[simp] theorem map_apply (f : α → β) (reader : Reader α) (tokens : List Token) :
    (f <$> reader) tokens = (reader tokens).map fun found => (f found.1, found.2) := by
  change (reader tokens).bind (fun found => some (f found.1, found.2)) = _
  cases reader tokens <;> rfl

@[simp] theorem orElse_apply (first second : Reader α) (tokens : List Token) :
    (first <|> second) tokens = (first tokens).or (second tokens) := by
  change (first tokens <|> second tokens) = _
  cases first tokens <;> rfl

@[simp] theorem get_apply (tokens : List Token) :
    (get : Reader (List Token)) tokens = some (tokens, tokens) := rfl

@[simp] theorem next_nil (accept : Token → Bool) : next accept [] = none := rfl

@[simp] theorem next_cons (accept : Token → Bool) (token : Token) (tokens : List Token) :
    next accept (token :: tokens) = if accept token then some (token, tokens) else none := rfl

@[simp] theorem ahead_apply (accept : Token → Bool) (tokens : List Token) :
    ahead accept tokens = some (tokens.head?.any accept, tokens) := rfl

@[simp] theorem require_apply (condition : Bool) (tokens : List Token) :
    require condition tokens = if condition then some ((), tokens) else none := by
  cases condition <;> rfl

@[simp] theorem optional_apply (reader : Reader α) (tokens : List Token) :
    optional reader tokens =
      ((reader tokens).map fun found => (some found.1, found.2)).or (some (none, tokens)) := by
  simp [optional]

@[simp] theorem maybe_apply (reader : Reader α) (tokens : List Token) :
    maybe reader tokens = some ((), ((reader tokens).map (·.2)).getD tokens) := by
  cases found : reader tokens <;> simp [maybe, found]

@[simp] theorem ofKind_nil (kind : TokenKind) : ofKind kind [] = none := rfl

@[simp] theorem ofKind_cons (kind : TokenKind) (token : Token) (tokens : List Token) :
    ofKind kind (token :: tokens) = if token.kind = kind then some (token.text, tokens) else none := by
  by_cases same : token.kind = kind <;> simp [ofKind, same]

@[simp] theorem anyWord_nil : anyWord [] = none := rfl

@[simp] theorem anyWord_cons (token : Token) (tokens : List Token) :
    anyWord (token :: tokens) = if token.kind = .word then some (token.text, tokens) else none :=
  ofKind_cons _ _ _

@[simp] theorem sign_nil (text : String) : sign text [] = none := rfl

@[simp] theorem sign_cons (text : String) (token : Token) (tokens : List Token) :
    sign text (token :: tokens) = if token.isSign text then some ((), tokens) else none := by
  by_cases same : token.isSign text = true <;> simp [sign, same]

@[simp] theorem word_nil (text : String) : word text [] = none := rfl

@[simp] theorem word_cons (text : String) (token : Token) (tokens : List Token) :
    word text (token :: tokens) = if token.isWord text then some ((), tokens) else none := by
  by_cases same : token.isWord text = true <;> simp [word, same]

@[simp] theorem oneOfSigns_nil (texts : List String) : oneOfSigns texts [] = none := rfl

@[simp] theorem oneOfSigns_cons (texts : List String) (token : Token) (tokens : List Token) :
    oneOfSigns texts (token :: tokens) =
      if token.kind = .sign ∧ token.text ∈ texts then some (token.text, tokens) else none := by
  by_cases same : token.kind = .sign ∧ token.text ∈ texts <;> simp [oneOfSigns, same]

@[simp] theorem oneOfWords_nil (texts : List String) : oneOfWords texts [] = none := rfl

@[simp] theorem oneOfWords_cons (texts : List String) (token : Token) (tokens : List Token) :
    oneOfWords texts (token :: tokens) =
      if token.kind = .word ∧ token.text ∈ texts then some (token.text, tokens) else none := by
  by_cases same : token.kind = .word ∧ token.text ∈ texts <;> simp [oneOfWords, same]

theorem manyUpTo_of_none {reader : Reader α} {tokens : List Token} (none : reader tokens = .none)
    (limit : Nat) : manyUpTo reader limit tokens = some ([], tokens) := by
  cases limit with
  | zero => rfl
  | succ limit => simp [manyUpTo, none]

theorem many_of_none {reader : Reader α} {tokens : List Token} (none : reader tokens = .none) :
    many reader tokens = some ([], tokens) :=
  manyUpTo_of_none none _

/-- All tokens are read at once. -/
theorem many_of_whole {reader : Reader α} {token : Token} {tokens : List Token} {a : α}
    (whole : reader (token :: tokens) = some (a, [])) (none : reader [] = .none) :
    many reader (token :: tokens) = some ([a], []) := by
  simp [many, manyUpTo, whole, manyUpTo_of_none none]

@[simp] theorem many_nil (reader : Reader α) : many reader [] = some ([], []) := rfl

/-- A list of one item, behind which no separator stands. -/
theorem separated_single {item : Reader α} {a : α} {tokens rest : List Token} {separator : String}
    (read : item tokens = some (a, rest)) (ends : sign separator rest = none) :
    separated separator item tokens = some ([a], rest) := by
  have none : (do sign separator; item) rest = .none := by simp [ends]
  simp [separated, read, many_of_none none]

theorem iterateUpTo_of_none {step : α → Reader α} {a : α} {tokens : List Token}
    (none : step a tokens = .none) (limit : Nat) :
    iterateUpTo step limit a tokens = some (a, tokens) := by
  cases limit with
  | zero => rfl
  | succ limit => simp [iterateUpTo, none]

theorem iterateUpTo_of_some {step : α → Reader α} {a b : α} {tokens rest : List Token} {limit : Nat}
    {found : α × List Token} (here : step a tokens = some (b, rest))
    (later : iterateUpTo step limit b rest = some found) :
    iterateUpTo step (limit + 1) a tokens = some found := by
  simp [iterateUpTo, here, later]

/-- A value is carried on through steps, each of which reads some token. -/
inductive Steps (step : α → Reader α) : α → List Token → α → List Token → Prop
  | refl (a : α) (tokens : List Token) : Steps step a tokens a tokens
  | head {a b c : α} {tokens behind rest : List Token} (first : step a tokens = some (b, behind))
      (shorter : behind.length < tokens.length) (more : Steps step b behind c rest) :
      Steps step a tokens c rest

theorem Steps.trans {step : α → Reader α} {a b c : α} {tokens behind rest : List Token}
    (first : Steps step a tokens b behind) (second : Steps step b behind c rest) :
    Steps step a tokens c rest := by
  induction first with
  | refl => exact second
  | head here shorter _ ih => exact .head here shorter (ih second)

/-- As many steps are taken as there are. -/
theorem Steps.iterate {step : α → Reader α} {a b : α} {tokens rest : List Token}
    (steps : Steps step a tokens b rest) (last : step b rest = none) :
    Reader.iterate step a tokens = some (b, rest) := by
  suffices ∀ limit, tokens.length ≤ limit → iterateUpTo step limit a tokens = some (b, rest) from
    this _ (Nat.le_refl _)
  induction steps with
  | refl a tokens => exact fun limit _ => iterateUpTo_of_none last limit
  | head first shorter _ ih =>
    intro limit enough
    obtain ⟨limit, rfl⟩ := Nat.exists_eq_add_one.mpr (Nat.zero_lt_of_lt (Nat.lt_of_lt_of_le shorter enough))
    exact iterateUpTo_of_some first (ih last limit (by omega))

/-- What an item is read from, and the item. -/
structure Piece (α : Type) where
  tokens : List Token
  value : α

def comma : Token := { kind := .sign, text := "," }

/-- The tokens of pieces behind the first, each with a comma before it. -/
def Piece.behind (pieces : List (Piece α)) : List Token :=
  pieces.flatMap fun piece => comma :: piece.tokens

/-- The tokens of pieces with commas between them. -/
def Piece.all : List (Piece α) → List Token
  | [] => []
  | first :: more => first.tokens ++ Piece.behind more

/-- A piece whose item is read up to a comma or a closing sign, with which it does not begin. -/
structure Piece.Fits (item : Reader α) (ends : Token) (piece : Piece α) : Prop where
  begins : ∃ token tokens, piece.tokens = token :: tokens ∧ token.isSign ends.text = false
  reads : ∀ stop ∈ [ends, comma], ∀ rest,
    item (piece.tokens ++ stop :: rest) = some (piece.value, stop :: rest)

theorem Piece.length_le {pieces : List (Piece α)} {item : Reader α} {ends : Token}
    (fits : ∀ piece ∈ pieces, piece.Fits item ends) : pieces.length ≤ (Piece.all pieces).length := by
  have behind {more : List (Piece α)} : more.length ≤ (Piece.behind more).length := by
    induction more with
    | nil => simp
    | cons piece more ih => simp [Piece.behind] at ih ⊢; omega
  cases pieces with
  | nil => simp
  | cons first more =>
    obtain ⟨token, tokens, same, -⟩ := (fits first (.head _)).begins
    have := @behind more
    simp [Piece.all, same]
    omega

theorem Piece.length_tokens_le {pieces : List (Piece α)} {piece : Piece α} (member : piece ∈ pieces) :
    piece.tokens.length ≤ (Piece.all pieces).length := by
  cases pieces with
  | nil => cases member
  | cons first more =>
    rw [Piece.all, List.length_append]
    rcases List.mem_cons.mp member with rfl | later
    · omega
    · have inside : comma :: piece.tokens ∈ more.map fun piece => comma :: piece.tokens :=
        List.mem_map.mpr ⟨piece, later, rfl⟩
      have short := (List.infix_of_mem_flatten inside).length_le
      rw [← List.flatMap_def, ← Piece.behind, List.length_cons] at short
      omega

section Items

variable {item : Reader α} {ends : Token}

theorem itemsUpTo_last {tokens rest : List Token} {a : α} (closes : ends.kind = .sign)
    (begins : sign ends.text tokens = none) (here : item tokens = some (a, ends :: rest))
    (limit : Nat) : itemsUpTo ends.text item (limit + 1) tokens = some ([a], rest) := by
  simp [itemsUpTo, begins, here, Token.isSign, Token.is, closes]

theorem itemsUpTo_more {tokens behind rest : List Token} {a : α} {more : List α} {limit : Nat}
    (other : ends.text ≠ ",") (begins : sign ends.text tokens = none)
    (here : item tokens = some (a, comma :: behind))
    (later : itemsUpTo ends.text item limit behind = some (more, rest)) :
    itemsUpTo ends.text item (limit + 1) tokens = some (a :: more, rest) := by
  simp [itemsUpTo, begins, here, comma, Ne.symm other, later]

theorem itemsUpTo_cons (closes : ends.kind = .sign) (other : ends.text ≠ ",") {first : Piece α}
    {more : List (Piece α)} (fits : ∀ piece ∈ first :: more, piece.Fits item ends) {limit : Nat}
    (enough : more.length ≤ limit) (rest : List Token) :
    itemsUpTo ends.text item (limit + 1) (Piece.all (first :: more) ++ ends :: rest) =
      some ((first :: more).map (·.value), rest) := by
  have unclosed (behind : List Token) : sign ends.text (first.tokens ++ behind) = none := by
    obtain ⟨token, tokens, same, begins⟩ := (fits first (.head _)).begins
    simp [same, begins]
  have reads := (fits first (.head _)).reads
  induction more generalizing first limit with
  | nil =>
    have whole : Piece.all [first] ++ ends :: rest = first.tokens ++ ends :: rest := by
      simp [Piece.all, Piece.behind]
    rw [whole]
    exact itemsUpTo_last closes (unclosed _) (reads ends (by simp) rest) limit
  | cons second more ih =>
    obtain ⟨limit, rfl⟩ := Nat.exists_eq_add_one.mpr (Nat.zero_lt_of_lt enough)
    have later := ih (fun piece member => fits piece (.tail _ member)) (by simpa using enough)
      (fun behind => by
        obtain ⟨token, tokens, same, begins⟩ := (fits second (by simp)).begins
        simp [same, begins])
      (fits second (by simp)).reads
    have whole : Piece.all (first :: second :: more) ++ ends :: rest =
        first.tokens ++ comma :: (Piece.all (second :: more) ++ ends :: rest) := by
      simp [Piece.all, Piece.behind]
    rw [whole]
    exact itemsUpTo_more other (unclosed _) (reads comma (by simp) _) later

/-- Pieces with commas between them are read up to a closing sign. -/
theorem items_pieces (ends : Token) (closes : ends.kind = .sign) (other : ends.text ≠ ",")
    {pieces : List (Piece α)} (fits : ∀ piece ∈ pieces, piece.Fits item ends)
    (rest : List Token) :
    items ends.text item (Piece.all pieces ++ ends :: rest) = some (pieces.map (·.value), rest) := by
  cases pieces with
  | nil => simp [items, itemsUpTo, Piece.all, Token.isSign, Token.is, closes]
  | cons first more =>
    refine itemsUpTo_cons closes other fits ?_ rest
    have := Piece.length_le fits
    simp only [List.length_append, List.length_cons] at this ⊢
    omega

end Items

end Reader

end SchemaAtlas.Script
