import SchemaAtlas.Dialect
import SchemaAtlas.Sample

/-!
What the command line can ask for, and the texts that explain it.
-/

set_option autoImplicit false

namespace SchemaAtlas.Cli

inductive Format
  | pretty
  | table
  | json
  deriving DecidableEq, Repr

namespace Format

def all : List Format := [.pretty, .table, .json]

def label : Format → String
  | .pretty => "pretty"
  | .table => "table"
  | .json => "json"

def ofLabel? (label : String) : Option Format := all.find? (·.label = label)

end Format

structure Options where
  file : Option String := none
  sample : Option Sample := none
  /-- The label of a dialect. -/
  dialect : Option String := none
  related : Option String := none
  format : Format := .pretty
  exportFile : Option String := none
  noColor : Bool := false
  strict : Bool := false
  dedupe : Bool := false
  noFallback : Bool := false
  noWarnings : Bool := false
  deriving DecidableEq, Repr

inductive Switch
  | help
  | sample
  | dialect
  | related
  | format
  | export
  | noColor
  | strict
  | dedupe
  | noFallback
  | noWarnings
  deriving DecidableEq, Repr

namespace Switch

def all : List Switch :=
  [.help, .sample, .dialect, .related, .format, .export, .noColor, .strict, .dedupe, .noFallback,
    .noWarnings]

def names : Switch → List String
  | .help => ["-h", "--help"]
  | .sample => ["--example", "-x"]
  | .dialect => ["--dialect", "-d"]
  | .related => ["--related", "-r"]
  | .format => ["--format", "-f"]
  | .export => ["--export", "-o"]
  | .noColor => ["--no-color"]
  | .strict => ["--strict"]
  | .dedupe => ["--dedupe"]
  | .noFallback => ["--no-fallback"]
  | .noWarnings => ["--no-warnings"]

/-- All names with their switches, in the order of the switches. -/
def table : List (String × Switch) :=
  all.flatMap fun switch => switch.names.map fun name => (name, switch)

def ofName? (name : String) : Option Switch := (table.find? (·.1 = name)).map (·.2)

def takesValue : Switch → Bool
  | .sample | .dialect | .related | .format | .export => true
  | _ => false

/-- The values a switch is limited to. -/
def choices? : Switch → Option (List String)
  | .sample => some (Sample.all.map Sample.label)
  | .dialect => some Dialect.supportedLabels
  | .format => some (Format.all.map Format.label)
  | _ => none

/-- The options with a switch thrown, and set to a value if it takes one. -/
def apply (switch : Switch) (value : String) (options : Options) : Options :=
  match switch with
  | .help => options
  | .sample => { options with sample := Sample.ofLabel? value }
  | .dialect => { options with dialect := some value }
  | .related => { options with related := some value }
  | .format => { options with format := (Format.ofLabel? value).getD options.format }
  | .export => { options with exportFile := some value }
  | .noColor => { options with noColor := true }
  | .strict => { options with strict := true }
  | .dedupe => { options with dedupe := true }
  | .noFallback => { options with noFallback := true }
  | .noWarnings => { options with noWarnings := true }

end Switch

def program : String := "schema-extractor"

/-- The options in short, each line ended. -/
def usage : String := joinWith "\n" [
  "usage: schema-extractor [-h] [--example \x7bdrizzle,prisma\x7d]",
  "                        [--dialect \x7bdrizzle,prisma\x7d] [--related TABLE]",
  "                        [--format \x7bpretty,table,json\x7d] [--export FILE]",
  "                        [--no-color] [--strict] [--dedupe] [--no-fallback]",
  "                        [--no-warnings]",
  "                        [schema_file]",
  ""]

def help : String := joinWith "\n" [
  usage,
  "Drizzle and Prisma schema extractor",
  "",
  "options:",
  "  -h, --help            show this help message and exit",
  "",
  "Input Options:",
  "  schema_file           Schema file to extract ('-' for stdin)",
  "  --example \x7bdrizzle,prisma\x7d, -x \x7bdrizzle,prisma\x7d",
  "                        Use a bundled example schema instead of a file",
  "  --dialect \x7bdrizzle,prisma\x7d, -d \x7bdrizzle,prisma\x7d",
  "                        Schema dialect (default: detect)",
  "",
  "Query Options:",
  "  --related TABLE, -r TABLE",
  "                        Show the tables connected to a table",
  "",
  "Output Options:",
  "  --format \x7bpretty,table,json\x7d, -f \x7bpretty,table,json\x7d",
  "                        Output format (default: pretty)",
  "  --export FILE, -o FILE",
  "                        Export the result as JSON to a file",
  "  --no-color            Disable colored output",
  "",
  "Configuration:",
  "  --strict              Fail when a relationship references an unknown table",
  "  --dedupe              Emit each (source, column, target, column)",
  "                        relationship once",
  "  --no-fallback         Do not retry with the fallback parser",
  "  --no-warnings         Suppress warnings",
  "",
  "Examples:",
  "  # Extract a Prisma schema",
  "  schema-extractor prisma/schema.prisma",
  "",
  "  # Extract a Drizzle schema as a table listing",
  "  schema-extractor src/db/schema.ts --format table",
  "",
  "  # Export the normalized schema",
  "  schema-extractor src/db/schema.ts --export schema.json",
  "",
  "  # Read from stdin",
  "  cat schema.prisma | schema-extractor - --dialect prisma",
  "        "]

end SchemaAtlas.Cli
