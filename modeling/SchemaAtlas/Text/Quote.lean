import SchemaAtlas.Text.Blank

/-!
Quoted strings inside a text: which characters stand inside one, and removing the quotes of a
single string. A string ends at the quote it began with; a backslash takes the next character
along.
-/

set_option autoImplicit false

namespace SchemaAtlas.Text

def isQuote (c : Char) : Bool := c = '\'' || c = '"' || c = '\x60'

/-- Where a scan stands: outside strings, inside one, or behind a backslash inside one. -/
inductive Mode
  | code
  | quoted (quote : Char)
  | escaped (quote : Char)
  deriving DecidableEq, Repr

def Mode.next : Mode → Char → Mode
  | .code, c => if isQuote c then .quoted c else .code
  | .quoted q, c => if c = '\\' then .escaped q else if c = q then .code else .quoted q
  | .escaped q, _ => .quoted q

def Mode.run (mode : Mode) (cs : List Char) : Mode := cs.foldl Mode.next mode

@[simp] theorem Mode.run_nil (mode : Mode) : mode.run [] = mode := rfl

@[simp] theorem Mode.run_cons (mode : Mode) (c : Char) (cs : List Char) :
    mode.run (c :: cs) = (mode.next c).run cs := rfl

@[simp] theorem Mode.run_append (mode : Mode) (as bs : List Char) :
    mode.run (as ++ bs) = (mode.run as).run bs := by
  simp [Mode.run]

/-- The characters outside strings, with a gap for each character of a string, quotes included. -/
def outline (mode : Mode) : List Char → List (Option Char)
  | [] => []
  | c :: cs => (if mode = .code ∧ isQuote c = false then some c else none) :: outline (mode.next c) cs

@[simp] theorem length_outline (mode : Mode) (cs : List Char) :
    (outline mode cs).length = cs.length := by
  induction cs generalizing mode with
  | nil => rfl
  | cons c cs ih => simp [outline, ih]

@[simp] theorem outline_append (mode : Mode) (as bs : List Char) :
    outline mode (as ++ bs) = outline mode as ++ outline (mode.run as) bs := by
  induction as generalizing mode with
  | nil => rfl
  | cons a as ih => simp [outline, ih]

/-- The trimmed text, without its quotes if it begins and ends with the same one. -/
def unquote (cs : List Char) : List Char :=
  let value := trim cs
  match value.head?, value.getLast? with
  | some first, some last =>
    if 2 ≤ value.length ∧ first = last ∧ isQuote first = true then (value.drop 1).dropLast else value
  | _, _ => value

end SchemaAtlas.Text
