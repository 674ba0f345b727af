import SchemaAtlas.Text.Bracket
import SchemaAtlas.Text.Pattern

/-!
Blocks of the form `keyword Name { ... }` in a text without comments.
-/

set_option autoImplicit false

namespace SchemaAtlas.Text

/-- A block: its name, the text between its braces, and the line on which its keyword stands. -/
structure Block where
  name : String
  body : List Char
  line : Nat
  deriving DecidableEq, Repr

/-- A block whose brace is never closed. -/
structure OpenBlock where
  name : String
  line : Nat
  deriving DecidableEq, Repr

/-- The blocks of a text in order, up to the first one that is not closed. -/
structure BlockScan where
  blocks : List Block := []
  unclosed : Option OpenBlock := none
  deriving DecidableEq, Repr

/-- The name in a block header and the text behind its brace. The keyword must not continue a word,
a dotted name or an attribute. -/
def blockHeader? (keyword : List Char) (before : Option Char) (cs : List Char) :
    Option (List Char × List Char) := do
  guard !(before.any fun c => isWord c || c = '.' || c = '@')
  let cs ← dropLiteral? keyword cs
  let cs ← dropBlanks? cs
  let (name, cs) ← takeWord? cs
  let cs ← dropLiteral? ['{'] (trimLeft cs)
  return (name, cs)

def blocksFrom (keyword : List Char) (skip line : Nat) (before : Option Char) :
    List Char → BlockScan
  | [] => {}
  | c :: cs =>
    let next := if c = '\n' then line + 1 else line
    match skip with
    | skip + 1 => blocksFrom keyword skip next (some c) cs
    | 0 =>
      match blockHeader? keyword before (c :: cs) with
      | none => blocksFrom keyword 0 next (some c) cs
      | some (name, behind) =>
        let name := String.ofList name
        match closeGroup? '{' behind with
        | none => { unclosed := some { name, line } }
        | some (body, rest) =>
          let scan := blocksFrom keyword (cs.length - rest.length) next (some c) cs
          { scan with blocks := { name, body, line } :: scan.blocks }

/-- The blocks that a keyword opens. A header inside the body of a block is part of that body. -/
def blocks (keyword : String) (cs : List Char) : BlockScan :=
  blocksFrom keyword.toList 0 1 none cs

def hasBlockHeader (keyword : String) (cs : List Char) : Bool :=
  hasMatch (blockHeader? keyword.toList) cs

end SchemaAtlas.Text
