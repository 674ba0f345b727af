import SchemaAtlas.Blocks.Schema

/-!
Which dialect a text is written in, judged by the declarations it holds.
-/

set_option autoImplicit false

namespace SchemaAtlas.Detect

open Text

/-- A call of one of the names, which must not continue a name. No names at all stand for the empty
one. -/
def callOf? (names : List String) (before : Option Char) (cs : List Char) : Option Unit :=
  if before.any fun c => isWord c || c = '$' then none
  else
    (if names.isEmpty then [""] else names).findSome? fun name => do
      let cs ← dropLiteral? name.toList cs
      let _ ← dropLiteral? ['('] (trimLeft cs)

def methodCall? (method : String) (cs : List Char) : Option Unit := do
  let cs ← dropLiteral? ('.' :: method.toList) cs
  let _ ← dropLiteral? ['('] (trimLeft cs)

def builderImport? (cs : List Char) : Option Unit := do
  let cs ← dropLiteral? ['f', 'r', 'o', 'm'] cs
  let cs ← dropBlanks? cs
  match cs with
  | c :: cs =>
    if c = '\'' ∨ c = '"' then
      let _ ← dropLiteral? "drizzle-orm".toList cs
    else none
  | [] => none

/-- One of the keywords as a word of its own, with a name and an opening brace behind it. -/
def blockOf? (keywords : List String) (before : Option Char) (cs : List Char) : Option Unit := do
  if atWordEdge before cs.head? then
    keywords.findSome? fun keyword => do
      let cs ← dropLiteral? keyword.toList cs
      let cs ← dropBlanks? cs
      let (_, cs) ← takeWord? cs
      let _ ← dropLiteral? ['{'] (trimLeft cs)
  else none

def callsAny (names : List String) (cs : List Char) : Bool := hasMatch (callOf? names) cs

def hasBlock (keywords : List String) (cs : List Char) : Bool := hasMatch (blockOf? keywords) cs

/-- The dialect of a text. A model or a block of settings is Prisma whatever else there is; an
enumeration block counts only where nothing speaks for Drizzle. -/
def detect (drizzle : DrizzleKeywords) (prisma : PrismaKeywords) (cs : List Char) : Dialect :=
  if hasBlock [prisma.modelKeyword] cs || hasBlock ["generator", "datasource"] cs then .prisma
  else if callsAny drizzle.tableConstructors cs || callsAny drizzle.enumConstructors cs ||
      hasMatch (fun _ => builderImport?) cs then .drizzle
  else if hasBlock [prisma.enumKeyword] cs then .prisma
  else .unknown

/-- Whether a text without comments holds at least one declaration of a dialect. -/
def looksLike (drizzle : DrizzleKeywords) (prisma : PrismaKeywords) (cs : List Char) :
    Dialect → Bool
  | .drizzle =>
    callsAny drizzle.tableConstructors cs || callsAny drizzle.tableCreators cs ||
      hasMatch (fun _ => methodCall? drizzle.schemaTableMethod) cs ||
      callsAny drizzle.enumConstructors cs
  | .prisma => Blocks.looksLike prisma cs
  | .unknown => false

end SchemaAtlas.Detect
