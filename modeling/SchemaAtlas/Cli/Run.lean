import SchemaAtlas.Cli.Arguments
import SchemaAtlas.Cli.Report
import SchemaAtlas.Extraction.Extract

/-!
A run of the program: from the arguments and the texts it may read to everything it writes.
-/

set_option autoImplicit false

namespace SchemaAtlas.Cli

open Text

/-- A text with every kind of line end written as a line feed. -/
def unixLines : List Char → List Char
  | [] => []
  | '\r' :: '\n' :: cs => '\n' :: unixLines cs
  | '\r' :: cs => '\n' :: unixLines cs
  | c :: cs => c :: unixLines cs

/-- A path without empty parts and without parts that stay where they are. -/
def plainPath (path : String) : String :=
  let parts := (splitAt '/' path.toList).filter fun part => !part.isEmpty && part ≠ ['.']
  let slashes := path.toList.takeWhile (· = '/')
  let root := if slashes.length = 2 then slashes else slashes.take 1
  let plain := root ++ List.intercalate ['/'] parts
  if plain.isEmpty then "." else String.ofList plain

structure Inputs where
  stdin : String := ""
  /-- The content of a file, if there is one at a path. -/
  file? : String → Option String := fun _ => none

structure Transcript where
  exit : Nat
  outputs : List Output
  notices : List String := []
  deriving DecidableEq, Repr

inductive Source
  | sample (sample : Sample)
  | stdin
  | file (path : String)
  | missing
  deriving DecidableEq, Repr

namespace Options

def source (options : Options) : Source :=
  match options.sample, options.file with
  | some sample, _ => .sample sample
  | none, none | none, some "" => .missing
  | none, some "-" => .stdin
  | none, some path => .file path

def console (options : Options) (asciiOnly : Bool) : Console where
  color := !options.noColor
  quiet := options.format = .json
  asciiOnly := asciiOnly

def config (options : Options) : Config Float :=
  { Config.default with
    enableFallback := !options.noFallback
    deduplicateRelationships := options.dedupe
    onUnresolved := if options.strict then .fail else .warn }

end Options

/-- The text of a source with what is said about it, or what is said if there is none. -/
def readSource (console : Console) (inputs : Inputs) :
    Source → Except (List Output) (List Output × String)
  | .sample sample => .ok (console.info ("Using bundled " ++ sample.label ++ " example"), sample.text)
  | .stdin => .ok ([], inputs.stdin)
  | .missing => .error (console.error "No schema file given. Pass a file, '-' or --example.")
  | .file path =>
    match inputs.file? (plainPath path) with
    | some content =>
      .ok (console.info ("Reading schema from: " ++ plainPath path),
        String.ofList (unixLines content.toList))
    | none => .error (console.error ("File not found: " ++ path))

def showSchema (console : Console) (format : Format) (result : ExtractionResult Float)
    (schema : Schema Float) : List Output :=
  match format with
  | .pretty => (prettyTexts console schema).map .out
  | .table => (listingTexts schema).map .out
  | .json => [.out (document result.toJson)]

def showNeighbours (console : Console) (format : Format) (neighbours : Neighbours) : List Output :=
  match format with
  | .json =>
    [.out (neighbours.toJson.render { indent := some 2, asciiOnly := true } Decimal.shortest)]
  | _ => (neighbours.texts console).map .out

def successText (dialect : Dialect) (tier : Option Tier) (stats : SchemaStats) : String :=
  "Extracted " ++ toString stats.tables ++ " tables, " ++ toString stats.relationships ++
    " relationships and " ++ toString stats.enums ++ " enums (" ++ dialect.displayName ++ ", " ++
    (tier.map Tier.label).getD "-" ++ " parser)."

def exportOutputs (console : Console) (path : String) (result : ExtractionResult Float) :
    List Output :=
  console.info ("\nExporting schema to: " ++ plainPath path) ++
    .file (plainPath path) (exportText result) ::
      console.success ("Exported to " ++ plainPath path)

/-- What is shown of a schema, with the status of the run: its neighbours of a table if they are
asked for, or all of it, and an export. -/
def showResult (console : Console) (options : Options) (result : ExtractionResult Float)
    (schema : Schema Float) : Nat × List Output :=
  let exported := match options.exportFile.filter (· ≠ "") with
    | some path => exportOutputs console path result
    | none => []
  match options.related.filter (· ≠ "") with
  | none => (0, showSchema console options.format result schema ++ exported)
  | some table =>
    match Neighbours.ofGraph? (Graph.ofSchema schema) table with
    | some neighbours => (0, showNeighbours console options.format neighbours ++ exported)
    | none => (1, console.error ("Table not found: " ++ table))

/-- Runs the program with options that were understood. `draws` are the random numbers for
positions. -/
def runOptions (options : Options) (asciiOnly : Bool) (draws : Nat → Float) (inputs : Inputs) :
    Transcript :=
  let console := options.console asciiOnly
  match readSource console inputs options.source with
  | .error outputs => { exit := 1, outputs }
  | .ok (opening, text) =>
    let extraction := extract options.config draws (some text.toList) options.dialect
    let result := extraction.result
    let warnings := if options.noWarnings then [] else warningOutputs console result.warnings
    let before := opening ++ console.info "Extracting schema..." ++ warnings
    match result.outcome with
    | .failure error _ =>
      let data := if options.format = .json then [.out (document result.toJson)] else []
      { exit := 1, notices := extraction.notices
        outputs := before ++ data ++ console.error ("Schema extraction failed: " ++ error) }
    | .success schema =>
      let (exit, shown) := showResult console options result schema
      { exit, notices := extraction.notices
        outputs := before ++
          console.success (successText result.dialect result.tier schema.stats) ++ shown }

def run (arguments : List String) (asciiOnly : Bool) (draws : Nat → Float) (inputs : Inputs) :
    Except Unprintable Transcript :=
  let transcript := match Request.ofArguments? arguments with
    | .error fault =>
      { exit := 2, outputs := [.err (usage ++ program ++ ": error: " ++ fault.message)] }
    | .ok .help => { exit := 0, outputs := [.out help] }
    | .ok (.run options) => runOptions options asciiOnly draws inputs
  match if asciiOnly then Unprintable.ofOutputs? transcript.outputs else none with
  | some unprintable => .error unprintable
  | none => .ok transcript

end SchemaAtlas.Cli
