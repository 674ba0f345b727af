import SchemaAtlas.Text.Blank
import SchemaAtlas.Text.Word

/-!
Matching at one place of a text, and searching a text for the places that match. A matcher is given
the character before the place, which is `none` at the front, and the text from there on.
-/

set_option autoImplicit false

namespace SchemaAtlas.Text

/-- The text behind a literal, when it begins with it. -/
def dropLiteral? : List Char → List Char → Option (List Char)
  | [], cs => some cs
  | _ :: _, [] => none
  | x :: xs, c :: cs => if x = c then dropLiteral? xs cs else none

@[simp] theorem dropLiteral?_append (xs cs : List Char) : dropLiteral? xs (xs ++ cs) = some cs := by
  induction xs with
  | nil => rfl
  | cons x xs ih => simp [dropLiteral?, ih]

/-- The text behind one or more blanks. -/
def dropBlanks? : List Char → Option (List Char)
  | [] => none
  | c :: cs => if isBlank c then some (trimLeft cs) else none

/-- The longest run of characters of a class, when there is one, and the text behind it. -/
def takeRun? (members : Char → Bool) (cs : List Char) : Option (List Char × List Char) :=
  match cs.span members with
  | ([], _) => none
  | (run, rest) => some (run, rest)

/-- The word a text begins with, and the text behind it. -/
def takeWord? (cs : List Char) : Option (List Char × List Char) := takeRun? isWord cs

def findMatch {α : Type} (here : Option Char → List Char → Option α) :
    Option Char → List Char → Option α
  | before, [] => here before []
  | before, c :: cs =>
    match here before (c :: cs) with
    | some a => some a
    | none => findMatch here (some c) cs

/-- Whether some place of the text matches. -/
def hasMatch {α : Type} (here : Option Char → List Char → Option α) (cs : List Char) : Bool :=
  (findMatch here none cs).isSome

/-- The matches of a text from the front on, each beginning behind the one before it. A matcher
answers with the text behind its match; `skip` characters still belong to the last match. -/
def matchesFrom {α : Type} (here : Option Char → List Char → Option (α × List Char)) (skip : Nat)
    (before : Option Char) : List Char → List α
  | [] => []
  | c :: cs =>
    match skip with
    | skip + 1 => matchesFrom here skip (some c) cs
    | 0 =>
      match here before (c :: cs) with
      | some (a, rest) => a :: matchesFrom here (cs.length - rest.length) (some c) cs
      | none => matchesFrom here 0 (some c) cs

def allMatches {α : Type} (here : Option Char → List Char → Option (α × List Char))
    (cs : List Char) : List α :=
  matchesFrom here 0 none cs

theorem exists_of_mem_matchesFrom {α : Type}
    {here : Option Char → List Char → Option (α × List Char)} {a : α} (skip : Nat)
    (before : Option Char) (cs : List Char) (member : a ∈ matchesFrom here skip before cs) :
    ∃ before cs rest, here before cs = some (a, rest) := by
  fun_induction matchesFrom here skip before cs with
  | case1 => simp at member
  | case2 _ _ _ _ ih => exact ih member
  | case3 before c cs found rest matched ih =>
    rcases List.mem_cons.mp member with rfl | later
    · exact ⟨before, c :: cs, rest, matched⟩
    · exact ih later
  | case4 _ _ _ _ ih => exact ih member

theorem exists_of_mem_allMatches {α : Type}
    {here : Option Char → List Char → Option (α × List Char)} {cs : List Char} {a : α}
    (member : a ∈ allMatches here cs) : ∃ before cs rest, here before cs = some (a, rest) :=
  exists_of_mem_matchesFrom 0 none cs member

/-- The text with every match replaced. A matcher answers with the text behind its match; `skip`
characters still belong to the last one. -/
def replaceFrom (replacement : List Char) (here : Option Char → List Char → Option (List Char))
    (skip : Nat) (before : Option Char) : List Char → List Char
  | [] => []
  | c :: cs =>
    match skip with
    | skip + 1 => replaceFrom replacement here skip (some c) cs
    | 0 =>
      match here before (c :: cs) with
      | some rest =>
        replacement ++ replaceFrom replacement here (cs.length - rest.length) (some c) cs
      | none => c :: replaceFrom replacement here 0 (some c) cs

def replaceMatches (replacement : List Char) (here : Option Char → List Char → Option (List Char))
    (cs : List Char) : List Char :=
  replaceFrom replacement here 0 none cs

def beginsWith (literal cs : List Char) : Bool := (dropLiteral? literal cs).isSome

def endsWith (literal cs : List Char) : Bool := beginsWith literal.reverse cs.reverse

def contains (literal cs : List Char) : Bool := hasMatch (fun _ => dropLiteral? literal) cs

end SchemaAtlas.Text
