import SchemaAtlas.Fault
import SchemaAtlas.Text.Quoted

/-!
What the program writes, and the marks and colors of its messages.
-/

set_option autoImplicit false

namespace SchemaAtlas.Cli

/-- One thing that is written. Texts for the two streams are given without their last line end. -/
inductive Output
  | out (text : String)
  | err (text : String)
  | file (path : String) (content : String)
  deriving DecidableEq, Repr

structure Console where
  color : Bool := true
  /-- Whether only data may go to standard output. -/
  quiet : Bool := false
  /-- Whether the streams take ASCII only. -/
  asciiOnly : Bool := false
  deriving DecidableEq, Repr

inductive Color
  | red
  | green
  | yellow
  | magenta
  | cyan
  deriving DecidableEq, Repr

def Color.code : Color → Nat
  | .red => 31
  | .green => 32
  | .yellow => 33
  | .magenta => 35
  | .cyan => 36

namespace Console

def paint (console : Console) (color : Color) (text : String) : String :=
  if console.color then "\x1b[" ++ toString color.code ++ "m" ++ text ++ "\x1b[0m" else text

/-- A message behind a mark, or behind a word in brackets where the mark cannot be shown. -/
def marked (console : Console) (color : Color) (mark word text : String) : String :=
  if console.color && !console.asciiOnly then console.paint color (mark ++ " " ++ text)
  else "[" ++ word ++ "] " ++ text

def unlessQuiet (console : Console) (text : String) : List Output :=
  if console.quiet then [] else [.out text]

def success (console : Console) (text : String) : List Output :=
  console.unlessQuiet (console.marked .green "✓" "OK" text)

def warning (console : Console) (text : String) : List Output :=
  console.unlessQuiet (console.marked .yellow "⚠" "WARN" text)

def info (console : Console) (text : String) : List Output :=
  console.unlessQuiet (console.paint .cyan text)

def error (console : Console) (text : String) : List Output :=
  [.err (console.marked .red "✗" "ERROR" text)]

end Console

/-- A text that a stream cannot take: its first characters that are not ASCII. -/
structure Unprintable where
  position : Nat
  characters : List Char
  deriving DecidableEq, Repr

namespace Unprintable

def isAscii (c : Char) : Bool := c.toNat < 128

def ofText? (text : String) : Option Unprintable :=
  let (fine, rest) := text.toList.span isAscii
  if rest.isEmpty then none
  else some { position := fine.length, characters := rest.takeWhile (!isAscii ·) }

def message (unprintable : Unprintable) : String :=
  let place := match unprintable.characters with
    | [c] =>
      "character '" ++ String.ofList (Text.escapeByNumber c) ++ "' in position " ++
        toString unprintable.position
    | characters =>
      "characters in position " ++ toString unprintable.position ++ "-" ++
        toString (unprintable.position + characters.length - 1)
  "'ascii' codec can't encode " ++ place ++ ": ordinal not in range(128)"

/-- The first text among outputs that a stream cannot take. -/
def ofOutputs? (outputs : List Output) : Option Unprintable :=
  outputs.findSome? fun output =>
    match output with
    | .out text | .err text => ofText? text
    | .file .. => none

end Unprintable

end SchemaAtlas.Cli
