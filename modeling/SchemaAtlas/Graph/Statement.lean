import SchemaAtlas.Text.Pattern

/-!
The statements of the DOT language that draw a graph, and reading them from a text that has one on
each line.
-/

set_option autoImplicit false

namespace SchemaAtlas.Dot

open Text

inductive Statement
  | node (id : String)
  | edge (source target label : String)
  deriving DecidableEq, Repr

/-- Spaces and tabs, which may stand between the parts of a statement. -/
def isGap (c : Char) : Bool := c = ' ' || c = '\t'

def isLineBreak (c : Char) : Bool := c = '\n' || c = '\r'

/-- The text behind a mark, which may have gaps in front. -/
def after? (mark : String) (cs : List Char) : Option (List Char) :=
  dropLiteral? mark.toList (cs.dropWhile isGap)

/-- The content of a string and what stands behind it, from behind its first quote on. A backslash
lets a quote stand inside and is left out then. Two backslashes are two characters, so that the second
one does nothing to a quote. No line ends inside a string. -/
def closeString? : List Char → Option (List Char × List Char)
  | [] => none
  | '"' :: rest => some ([], rest)
  | '\\' :: '"' :: rest => (closeString? rest).map fun (text, rest) => ('"' :: text, rest)
  | '\\' :: '\\' :: rest => (closeString? rest).map fun (text, rest) => ('\\' :: '\\' :: text, rest)
  | c :: rest =>
    if isLineBreak c then none else (closeString? rest).map fun (text, rest) => (c :: text, rest)

def string? (cs : List Char) : Option (String × List Char) := do
  let (text, rest) ← closeString? (← after? "\"" cs)
  return (String.ofList text, rest)

/-- The statement, unless anything stands behind it. -/
def Statement.alone? (statement : Statement) (rest : List Char) : Option Statement :=
  if rest.all isGap then some statement else none

/-- The edge from a node, by what stands behind the node. -/
def edgeFrom? (source : String) (cs : List Char) : Option Statement := do
  let (target, rest) ← string? (← after? "->" cs)
  let rest ← after? "=" (← after? "label" (← after? "[" rest))
  let (label, rest) ← string? rest
  let rest ← after? ";" (← after? "]" rest)
  (Statement.edge source target label).alone? rest

def Statement.ofLine? (line : List Char) : Option Statement := do
  let (first, rest) ← string? line
  match after? ";" rest with
  | some rest => (Statement.node first).alone? rest
  | none => edgeFrom? first rest

/-- What is stated on the lines between the two opening lines of a graph and its closing brace, and
`none` for each of them that is no statement. -/
def statements (text : String) : List (Option Statement) :=
  ((lines text.toList).drop 2).dropLast.map Statement.ofLine?

end SchemaAtlas.Dot
