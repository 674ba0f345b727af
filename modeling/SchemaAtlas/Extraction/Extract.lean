import SchemaAtlas.Blocks.Scan
import SchemaAtlas.Detect
import SchemaAtlas.Extraction.Result
import SchemaAtlas.Fluent.Scan
import SchemaAtlas.Fluent.Schema

/-!
Extraction of a schema from a text: the dialect is found, the text is read structurally, and where
that fails it is read once more by the coarse reader of the dialect.
-/

set_option autoImplicit false

namespace SchemaAtlas

/-- What an extraction returns, with what else came of its making: notices to the caller, and how
many random numbers were used. The parts of the result are checked once more at its end; parts that
make no result are refused. -/
structure Extraction (R : Type) where
  returned : Except Refusal (ExtractionResult R)
  notices : List String := []
  draws : Nat := 0

namespace Extraction

variable {R : Type}

/-- The result that is returned. Refused parts would leave a failure that says why. -/
def result (extraction : Extraction R) : ExtractionResult R :=
  match extraction.returned with
  | .ok result => result
  | .error refusal =>
    { outcome := .failure (Fault.refused refusal).describe (Fault.refused refusal).describe_ne_empty }

/-- A success, with the journal of the way to it. -/
def success (dialect : Dialect) (tier : Tier) (journal : Journal) (schema : Schema R) :
    Extraction R where
  returned :=
    ExtractionResult.ofParts? true (some schema) none dialect (some tier) journal.warnings
  notices := journal.notices
  draws := journal.draws

/-- A failure with its message, and the journal of the way to it. -/
def failure (dialect : Dialect) (journal : Journal) (message : String) : Extraction R where
  returned := ExtractionResult.ofParts? false none (some message) dialect none journal.warnings
  notices := journal.notices
  draws := journal.draws

/-- The text without comments and without blanks at its ends, unless it is no text or nothing of it
is left. -/
def clean? : Option (List Char) → Except Fault (List Char)
  | none => .error (.invalidInput "Invalid schema code provided")
  | some text =>
    if (Text.trim text).isEmpty then .error (.invalidInput "Schema code cannot be empty")
    else
      let cleaned := Text.trim (Text.stripComments text)
      if cleaned.isEmpty then .error (.invalidInput "Schema code is empty after removing comments")
      else .ok cleaned

/-- The dialect that the caller names or else the one that is detected, which is noted. -/
def dialectOf (config : Config R) (name : Option String) (cleaned : List Char) :
    Journaled Dialect := do
  match ← Journaled.ofExcept ((Dialect.ofName? name).mapError .refused) with
  | .unknown =>
    match Detect.detect config.drizzleKeywords config.prismaKeywords cleaned with
    | .unknown =>
      Journaled.fail (.extraction ("Could not detect the schema dialect. Specify one of " ++
        quotedNames Dialect.supportedLabels ++ "."))
    | dialect =>
      Journaled.info ("Detected " ++ dialect.displayName ++ " schema")
      return dialect
  | dialect => return dialect

/-- What is said when a text holds no declaration of a dialect. -/
def noDeclarations : Dialect → String
  | .drizzle =>
    "No Drizzle table definitions found. Make sure you have pgTable(), mysqlTable(), or " ++
      "sqliteTable() calls."
  | _ => Blocks.noDeclarations

variable [Coordinate R]

def readStructurally (config : Config R) (draws : Nat → R) :
    Dialect → List Char → Journaled (Schema R)
  | .drizzle => Fluent.readSchema config draws
  | _ => Blocks.readSchema config draws

def readCoarsely (config : Config R) (draws : Nat → R) :
    Dialect → List Char → Journaled (Schema R)
  | .drizzle => Fluent.Scan.readSchema config draws
  | _ => Blocks.Scan.readSchema config draws

/-- What to make of an empty schema that the coarse reader found after a fault of the structural
one: nothing if it may be empty, or else the fault to report. -/
def emptyFault? (config : Config R) (dialect : Dialect) (fault : Fault) : Option Fault :=
  match fault with
  | .emptySchema .. => some fault
  | _ =>
    if config.failOnEmptyFallback then
      some (.extraction
        ("No valid " ++ dialect.displayName ++ " tables or enums found in the schema"))
    else none

/-- The message of a fault that ends the coarse reading. -/
def coarseMessage (fault : Fault) : String :=
  if fault.isExtractionFault then fault.message else "Fallback parsing failed: " ++ fault.message

/-- Reads a text once more after the structural reader has failed with a fault. -/
def retry (config : Config R) (draws : Nat → R) (dialect : Dialect) (text : List Char)
    (journal : Journal) (fault : Fault) : Extraction R :=
  let handover : Journal := { warnings := [.handover dialect.displayName fault.describe] }
  let second := readCoarsely config (fun n => draws (journal.draws + n)) dialect text
  let journal := journal ++ handover ++ second.journal
  match second.outcome with
  | .error fault => failure dialect journal (coarseMessage fault)
  | .ok schema =>
    match if schema.isEmpty then emptyFault? config dialect fault else none with
    | some fault => failure dialect journal fault.message
    | none => success dialect .fallback journal schema

/-- Reads a text of a known dialect, whose clean form decides whether it is read at all. `before` is
the journal so far. -/
def ofDialect (config : Config R) (draws : Nat → R) (dialect : Dialect) (text cleaned : List Char)
    (before : Journal) : Extraction R :=
  if Detect.looksLike config.drizzleKeywords config.prismaKeywords cleaned dialect then
    let first := readStructurally config draws dialect text
    let journal := before ++ first.journal
    match first.outcome with
    | .ok schema => success dialect .structural journal schema
    | .error fault =>
      match fault, config.enableFallback with
      | .unresolvedReference .., _ => failure dialect journal fault.message
      | fault, false => failure dialect journal fault.describe
      | fault, true => retry config draws dialect text journal fault
  else failure dialect before (noDeclarations dialect)

end Extraction

variable {R : Type} [Coordinate R]

/-- Extracts the schema of a text, which is `none` if what was handed in is no text. The dialect may
be named; `draws` are the random numbers for positions. -/
def extract (config : Config R) (draws : Nat → R) (text : Option (List Char))
    (dialect : Option String) : Extraction R :=
  match Extraction.clean? text with
  | .error fault => .failure .unknown {} fault.message
  | .ok cleaned =>
    let found := Extraction.dialectOf config dialect cleaned
    match found.outcome with
    | .error fault => .failure .unknown found.journal fault.message
    | .ok dialect => .ofDialect config draws dialect (text.getD []) cleaned found.journal

/-- Extracts the schemas of several texts; each goes on with the random numbers where the one before
it stopped. -/
def extractAll (config : Config R) (draws : Nat → R) (texts : List (Option (List Char)))
    (dialect : Option String) : List (Extraction R) :=
  match texts with
  | [] => []
  | text :: texts =>
    let first := extract config draws text dialect
    first :: extractAll config (fun n => draws (first.draws + n)) texts dialect

end SchemaAtlas
