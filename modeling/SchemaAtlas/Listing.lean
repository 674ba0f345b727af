import SchemaAtlas.Decimal.Fixed
import SchemaAtlas.Decimal.Read
import SchemaAtlas.Fault
import SchemaAtlas.Text.Lower

/-!
Listings: rows of cells under headings, with a rule between. A column of numbers is aligned at the
decimal point and a column of texts at the left.
-/

set_option autoImplicit false

namespace SchemaAtlas.Listing

open Text

/-- What a cell holds, from the least general to the most general. -/
inductive CellKind
  | empty
  | truth
  | integer
  | decimal
  | text
  deriving DecidableEq, Repr

def CellKind.rank : CellKind → Nat
  | .empty => 0
  | .truth => 1
  | .integer => 2
  | .decimal => 3
  | .text => 4

def CellKind.join (a b : CellKind) : CellKind := if a.rank < b.rank then b else a

/-- Whether a text is a whole number whose digits commas group by three, perhaps with a fraction. -/
def isGrouped (cs : List Char) : Bool :=
  let cs := if cs.head? = some '+' ∨ cs.head? = some '-' then cs.drop 1 else cs
  match splitAt '.' cs with
  | [whole] => grouped whole
  | [whole, fraction] => grouped whole && fraction.all Char.isDigit
  | _ => false
where
  grouped (whole : List Char) : Bool :=
    match splitAt ',' whole with
    | first :: groups =>
      1 ≤ first.length && first.length ≤ 3 && first.all Char.isDigit &&
        groups.all fun group => group.length = 3 && group.all Char.isDigit
    | [] => false

/-- The spellings of numbers that are not finite. -/
def isNonFinite (cs : List Char) : Bool :=
  String.ofList (lower cs) ∈ ["inf", "-inf", "nan"]

def isNumber (cs : List Char) : Bool := (Decimal.readFinite? cs).isSome || isNonFinite cs

def isInteger (cs : List Char) : Bool := (Decimal.readInteger? cs).isSome

def CellKind.ofText (cs : List Char) : CellKind :=
  if cs.isEmpty then .empty
  else if cs = "True".toList ∨ cs = "False".toList then .truth
  else if isInteger cs || (isGrouped cs && '.' ∉ cs) then .integer
  else if isNumber cs || isGrouped cs then .decimal
  else .text

/-- The kind of a column: the most general one of its cells. -/
def columnKind (cells : List (List Char)) : CellKind :=
  cells.foldl (fun kind cell => kind.join (.ofText cell)) .truth

/-- A cell as it is printed in a column of a kind: a number of a decimal column with six digits. -/
def printed (kind : CellKind) (cs : List Char) : List Char :=
  match kind with
  | .decimal =>
    if cs.isEmpty then []
    else if isNonFinite cs then lower cs
    else
      match Decimal.readFinite? (cs.filter (· ≠ ',')) with
      | some x => (Decimal.sixDigits x).toList
      | none => cs
  | _ => cs

/-- How many characters stand behind the decimal point of a number, or else behind the mark of its
exponent; a whole number has no point, which counts one less than a point at the end. -/
def behindPoint (cs : List Char) : Nat :=
  if !(isNumber cs || isGrouped cs) || isInteger cs then 0
  else
    let behind (marks : List Char) := (cs.reverse.takeWhile (· ∉ marks)).length
    if '.' ∈ cs then behind ['.'] + 1
    else if 'e' ∈ cs ∨ 'E' ∈ cs then behind ['e', 'E'] + 1
    else 0

def cellLines : List Char → List (List Char)
  | [] => [[]]
  | '\r' :: '\n' :: cs => [] :: cellLines cs
  | c :: cs =>
    if c = '\n' ∨ c = '\r' then [] :: cellLines cs
    else
      match cellLines cs with
      | [] => [[c]]
      | line :: lines => (c :: line) :: lines

def padRight (width : Nat) (cs : List Char) : List Char :=
  cs ++ List.replicate (width - cs.length) ' '

def padLeft (width : Nat) (cs : List Char) : List Char :=
  List.replicate (width - cs.length) ' ' ++ cs

structure Column where
  heading : List Char
  numeric : Bool
  cells : List (List (List Char))

namespace Column

/-- The column of a heading and cells: numbers with their points at one place, texts trimmed. -/
def ofCells (heading : List Char) (cells : List (List Char)) : Column :=
  let kind := columnKind cells
  let cells := cells.map (printed kind)
  let numeric := kind = .integer || kind = .decimal
  if numeric then
    let most := (cells.map behindPoint).foldl max 0
    { heading, numeric, cells := cells.map fun cs => [padRight (cs.length + (most - behindPoint cs)) cs] }
  else { heading, numeric, cells := cells.map fun cs => cellLines (trim cs) }

/-- The width of a column, which is at least two more than that of its heading. -/
def width (column : Column) : Nat :=
  (column.cells.map fun lines => (lines.map List.length).foldl max 0).foldl max
    (column.heading.length + 2)

def pad (column : Column) (cs : List Char) : List Char :=
  if column.numeric then padLeft column.width cs else padRight column.width cs

/-- Line `n` of cell `row`; blank where the cell has fewer lines. -/
def lineAt (column : Column) (row n : Nat) : List Char :=
  column.pad (((column.cells[row]?).getD [])[n]?.getD [])

end Column

/-- Parts of a line, with two spaces between them and no blanks at its end. -/
def line (parts : List (List Char)) : String :=
  String.ofList (trimRight (List.intercalate [' ', ' '] parts))

/-- The lines of a listing. Every row has a cell for each heading. -/
def render (headings : List String) (rows : List (List String)) : List String :=
  let columns := headings.mapIdx fun n heading =>
    Column.ofCells heading.toList (rows.map fun row => (row.getD n "").toList)
  let height (row : Nat) : Nat :=
    (columns.map fun column => ((column.cells[row]?).getD []).length).foldl max 0
  line (columns.map fun column => column.pad column.heading) ::
    line (columns.map fun column => List.replicate column.width '-') ::
    (List.range rows.length).flatMap fun row =>
      (List.range (height row)).map fun n => line (columns.map fun column => column.lineAt row n)

end SchemaAtlas.Listing
