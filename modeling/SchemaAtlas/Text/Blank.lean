/-!
Blanks, and the operations on text that are defined by them: trimming and splitting into words.
-/

set_option autoImplicit false

namespace SchemaAtlas.Text

-- What is said of all items of a list is decided along the list, not by a search through all items
-- that there are.
instance (priority := 1100) decidableForallMem {α : Type} {p : α → Prop} [DecidablePred p]
    (items : List α) : Decidable (∀ a ∈ items, p a) :=
  List.decidableBAll p items

instance (priority := 1100) decidableForallFound {α : Type} {p : α → Prop} [DecidablePred p]
    (found : Option α) : Decidable (∀ a ∈ found, p a) :=
  Option.decidableForallMem found

/-- Spaces, tabs, line and page breaks, the four ASCII separators and the Unicode spaces. A zero
width space is not a blank. -/
def isBlank (c : Char) : Bool :=
  let n := c.toNat
  if n < 128 then (9 ≤ n && n ≤ 13) || (28 ≤ n && n ≤ 32)
  else n == 0x85 || n == 0xA0 || n == 0x1680 || (0x2000 ≤ n && n ≤ 0x200A) || n == 0x2028 ||
    n == 0x2029 || n == 0x202F || n == 0x205F || n == 0x3000

def trimLeft (cs : List Char) : List Char := cs.dropWhile isBlank

def trimRight (cs : List Char) : List Char := (cs.reverse.dropWhile isBlank).reverse

/-- The text without the blanks at its two ends. -/
def trim (cs : List Char) : List Char := trimRight (trimLeft cs)

/-- A text is trimmed when neither end is a blank. -/
def IsTrimmed (cs : List Char) : Prop :=
  (∀ c, cs.head? = some c → isBlank c = false) ∧ (∀ c, cs.getLast? = some c → isBlank c = false)

/-- The words of a text that goes on with a word, whose characters so far are given from its end. -/
def wordsFrom (word : List Char) : List Char → List (List Char)
  | [] => if word.isEmpty then [] else [word.reverse]
  | c :: cs =>
    if isBlank c then
      if word.isEmpty then wordsFrom [] cs else word.reverse :: wordsFrom [] cs
    else wordsFrom (c :: word) cs

/-- The maximal runs without blanks, in order. -/
def words (cs : List Char) : List (List Char) := wordsFrom [] cs

@[simp] theorem words_nil : words [] = [] := rfl

theorem words_cons {c : Char} (blank : isBlank c = true) (cs : List Char) :
    words (c :: cs) = words cs := by
  simp [words, wordsFrom, blank]

theorem wordsFrom_append {run : List Char} (solid : ∀ c ∈ run, isBlank c = false)
    (word rest : List Char) : wordsFrom word (run ++ rest) = wordsFrom (run.reverse ++ word) rest := by
  induction run generalizing word with
  | nil => rfl
  | cons c run ih =>
    rw [List.cons_append, wordsFrom, if_neg (by simp [solid c (.head _)]),
      ih fun d member => solid d (.tail _ member)]
    simp

/-- A run without blanks in front of a blank is a word. -/
theorem words_append {run : List Char} (some : run ≠ []) (solid : ∀ c ∈ run, isBlank c = false)
    {c : Char} (blank : isBlank c = true) (cs : List Char) :
    words (run ++ c :: cs) = run :: words cs := by
  rw [words, wordsFrom_append solid, wordsFrom, if_pos blank]
  simp [some, words]

/-- A text split at every `c`; there is one more piece than there are occurrences. -/
def splitAt (sep : Char) : List Char → List (List Char)
  | [] => [[]]
  | c :: cs =>
    if c = sep then [] :: splitAt sep cs
    else
      match splitAt sep cs with
      | [] => [[c]]
      | piece :: pieces => (c :: piece) :: pieces

/-- The lines of a text; only the line feed ends one. -/
def lines (cs : List Char) : List (List Char) := splitAt '\n' cs

/-- The number of the line that follows a text, counting from one. -/
def lineAfter (cs : List Char) : Nat := cs.count '\n' + 1

theorem splitAt_append {sep : Char} {piece : List Char} (whole : sep ∉ piece) (cs : List Char) :
    splitAt sep (piece ++ sep :: cs) = piece :: splitAt sep cs := by
  induction piece with
  | nil => simp [splitAt]
  | cons c piece ih =>
    have other : c ≠ sep := fun same => whole (same ▸ .head _)
    rw [List.cons_append, splitAt, if_neg other, ih fun member => whole (.tail _ member)]

theorem lines_append {line : List Char} (whole : '\n' ∉ line) (cs : List Char) :
    lines (line ++ '\n' :: cs) = line :: lines cs :=
  splitAt_append whole cs

/-- The line on which the character at `index` stands. A negative index counts from the end. -/
def lineNumberAt (cs : List Char) (index : Int) : Nat :=
  let stop := if index < 0 then index + cs.length else index
  lineAfter (cs.take stop.toNat)

end SchemaAtlas.Text
