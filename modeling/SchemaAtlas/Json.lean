import SchemaAtlas.Fault

/-!
JSON documents and their text. Members keep their order. The numbers are a parameter: how they are
written is left to the caller.
-/

set_option autoImplicit false

namespace SchemaAtlas

inductive Json (R : Type)
  | null
  | bool (value : Bool)
  | integer (value : Int)
  | number (value : R)
  | string (value : String)
  | array (items : List (Json R))
  | object (members : List (String × Json R))

namespace Json

variable {R : Type}

/-- How a document is written: `indent` blanks per level or all on one line, and whether characters
outside ASCII are escaped. -/
structure Style where
  indent : Option Nat := some 2
  asciiOnly : Bool := false

def hexDigit (n : Nat) : Char := if n < 10 then Char.ofNat (48 + n) else Char.ofNat (87 + n)

def unitEscape (n : Nat) : List Char :=
  ['\\', 'u', hexDigit (n / 4096 % 16), hexDigit (n / 256 % 16), hexDigit (n / 16 % 16),
    hexDigit (n % 16)]

/-- A character inside a string: quotes, backslashes and controls are escaped. -/
def escapeChar (style : Style) (c : Char) : List Char :=
  if c = '"' then ['\\', '"']
  else if c = '\\' then ['\\', '\\']
  else if c = '\n' then ['\\', 'n']
  else if c = '\r' then ['\\', 'r']
  else if c = '\t' then ['\\', 't']
  else if c = '\x08' then ['\\', 'b']
  else if c = '\x0c' then ['\\', 'f']
  else if c.toNat < 32 then unitEscape c.toNat
  else if style.asciiOnly && 126 < c.toNat then
    if c.toNat < 0x10000 then unitEscape c.toNat
    else
      let rest := c.toNat - 0x10000
      unitEscape (0xD800 + rest / 1024) ++ unitEscape (0xDC00 + rest % 1024)
  else [c]

def quote (style : Style) (text : String) : String :=
  String.ofList ('"' :: (text.toList.flatMap (escapeChar style) ++ ['"']))

/-- Items between brackets, each on a line of its own unless all is on one line; nothing stands
between empty brackets. -/
def enclose (style : Style) (level : Nat) (opener closer : String) (items : List String) : String :=
  match style.indent, items with
  | _, [] => opener ++ closer
  | none, items => opener ++ joinWith ", " items ++ closer
  | some indent, items =>
    let lineAt (level : Nat) := String.ofList ('\n' :: List.replicate (indent * level) ' ')
    opener ++ lineAt (level + 1) ++ joinWith ("," ++ lineAt (level + 1)) items ++ lineAt level ++ closer

mutual

def renderAt (style : Style) (number : R → String) (level : Nat) : Json R → String
  | .null => "null"
  | .bool value => if value then "true" else "false"
  | .integer value => toString value
  | .number value => number value
  | .string value => quote style value
  | .array items => enclose style level "[" "]" (renderItems style number (level + 1) items)
  | .object members =>
    enclose style level "\x7b" "\x7d" (renderMembers style number (level + 1) members)

def renderItems (style : Style) (number : R → String) (level : Nat) : List (Json R) → List String
  | [] => []
  | item :: items => renderAt style number level item :: renderItems style number level items

def renderMembers (style : Style) (number : R → String) (level : Nat) :
    List (String × Json R) → List String
  | [] => []
  | (key, value) :: members =>
    (quote style key ++ ": " ++ renderAt style number level value) ::
      renderMembers style number level members

end

def render (style : Style) (number : R → String) (document : Json R) : String :=
  renderAt style number 0 document

/-- A text, or null. -/
def ofText? : Option String → Json R
  | some text => .string text
  | none => .null

end Json

end SchemaAtlas
