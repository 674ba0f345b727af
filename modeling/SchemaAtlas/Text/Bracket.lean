import SchemaAtlas.Fault
import SchemaAtlas.Text.Quote

/-!
Round, square and curly brackets outside strings: the partner of an opening bracket, balance, and
splitting at separators that stand outside all brackets.
-/

set_option autoImplicit false

namespace SchemaAtlas.Text

def closerOf? : Char → Option Char
  | '(' => some ')'
  | '[' => some ']'
  | '{' => some '}'
  | _ => none

def isOpener (c : Char) : Bool := (closerOf? c).isSome

def isCloser (c : Char) : Bool := c = ')' || c = ']' || c = '}'

/-- How many characters stand before the bracket that closes the outermost of the open groups.
`pending` holds the closing brackets still to come, innermost first; a closing bracket of the wrong
kind ends the search. -/
def closeOffset? (pending : List Char) : List (Option Char) → Option Nat
  | [] => none
  | none :: cs => (closeOffset? pending cs).map (· + 1)
  | some c :: cs =>
    match closerOf? c with
    | some closer => (closeOffset? (closer :: pending) cs).map (· + 1)
    | none =>
      if isCloser c then
        match pending with
        | [] => none
        | [last] => if c = last then some 0 else none
        | inner :: outer => if c = inner then (closeOffset? outer cs).map (· + 1) else none
      else (closeOffset? pending cs).map (· + 1)

/-- Splits the text behind an opening bracket at the bracket that closes it. -/
def closeGroup? (opener : Char) (cs : List Char) : Option (List Char × List Char) := do
  let closer ← closerOf? opener
  let n ← closeOffset? [closer] (outline .code cs)
  return (cs.take n, cs.drop (n + 1))

/-- The index of the partner of the opening bracket at `index`, or `none` if it is not closed. A
negative index counts from the end of the text; the search then runs through the characters behind
it and on from the front. -/
def partner? (cs : List Char) (index : Int) : Except Refusal (Option Int) :=
  let start := if index < 0 then index + cs.length else index
  if start < 0 then .error .indexOutsideText
  else
    match cs[start.toNat]?.bind closerOf? with
    | none => .error (.noOpeningBracket index)
    | some closer =>
      let behind := cs.drop (start.toNat + 1) ++ (if index < 0 then cs else [])
      .ok ((closeOffset? [closer] (outline .code behind)).map (index + 1 + ·))

/-- Whether the curly brackets balance behind so many open ones. -/
def balancedFrom (depth : Nat) : List (Option Char) → Bool
  | [] => depth = 0
  | none :: cs => balancedFrom depth cs
  | some c :: cs =>
    if c = '{' then balancedFrom (depth + 1) cs
    else if c = '}' then
      match depth with
      | 0 => false
      | depth + 1 => balancedFrom depth cs
    else balancedFrom depth cs

/-- Whether the curly brackets outside strings balance. -/
def bracesBalanced (cs : List Char) : Bool := balancedFrom 0 (outline .code cs)

@[simp] theorem bracesBalanced_nil : bracesBalanced [] = true := rfl

/-- A text without curly brackets outside its strings, all of which are closed. -/
structure Braceless (cs : List Char) : Prop where
  run : Mode.code.run cs = .code
  opening : some '{' ∉ outline .code cs
  closing : some '}' ∉ outline .code cs

theorem balancedFrom_append {line : List (Option Char)} (opening : some '{' ∉ line)
    (closing : some '}' ∉ line) (depth : Nat) (rest : List (Option Char)) :
    balancedFrom depth (line ++ rest) = balancedFrom depth rest := by
  induction line with
  | nil => rfl
  | cons place line ih =>
    have later := ih (fun member => opening (.tail _ member)) fun member => closing (.tail _ member)
    cases place with
    | none => exact later
    | some c =>
      have noOpener : c ≠ '{' := fun same => opening (same ▸ .head _)
      have noCloser : c ≠ '}' := fun same => closing (same ▸ .head _)
      simpa [balancedFrom, noOpener, noCloser] using later

theorem bracesBalanced_append {head : List Char} (before : Braceless head) (rest : List Char) :
    bracesBalanced (head ++ rest) = bracesBalanced rest := by
  rw [bracesBalanced, outline_append, before.run,
    balancedFrom_append before.opening before.closing]
  rfl

/-- A block with nothing but strings and other brackets before and between its braces does not
matter for the balance. -/
theorem bracesBalanced_block {head body : List Char} (before : Braceless head)
    (between : Braceless body) (rest : List Char) :
    bracesBalanced (head ++ '{' :: (body ++ '}' :: rest)) = bracesBalanced rest := by
  rw [bracesBalanced_append before]
  have opens : outline .code ('{' :: (body ++ '}' :: rest)) =
      some '{' :: (outline .code body ++ some '}' :: outline .code rest) := by
    rw [outline, show Mode.code.next '{' = .code from rfl, outline_append, between.run]
    rfl
  rw [bracesBalanced, opens]
  change balancedFrom 1 _ = _
  rw [balancedFrom_append between.opening between.closing]
  rfl

theorem Braceless.append {as bs : List Char} (first : Braceless as) (second : Braceless bs) :
    Braceless (as ++ bs) where
  run := by rw [Mode.run_append, first.run, second.run]
  opening := by simp [first.run, first.opening, second.opening]
  closing := by simp [first.run, first.closing, second.closing]

/-- The pieces between the separators outside strings at depth zero; brackets of any kind count for
the depth, which may fall below zero. -/
def splitFrom (isSeparator : Char → Bool) (mode : Mode) (depth : Int) :
    List Char → List (List Char)
  | [] => [[]]
  | c :: cs =>
    let plain := mode = .code ∧ isQuote c = false
    let deeper := if plain ∧ isOpener c = true then 1 else if plain ∧ isCloser c = true then -1 else 0
    if plain ∧ deeper = 0 ∧ depth = 0 ∧ isSeparator c = true then
      [] :: splitFrom isSeparator .code 0 cs
    else
      match splitFrom isSeparator (mode.next c) (depth + deeper) cs with
      | [] => [[c]]
      | piece :: pieces => (c :: piece) :: pieces

/-- The trimmed pieces of a text between separators outside brackets and strings, the empty ones
left out. -/
def splitTopLevel (isSeparator : Char → Bool) (cs : List Char) : List (List Char) :=
  ((splitFrom isSeparator .code 0 cs).map trim).filter (!·.isEmpty)

def splitCommas (cs : List Char) : List (List Char) := splitTopLevel (· = ',') cs

end SchemaAtlas.Text
