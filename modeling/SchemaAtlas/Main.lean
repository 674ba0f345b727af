import SchemaAtlas.Cli.Run

/-!
The program. It reads the file that the arguments name, or standard input, and writes what the run
makes of it.
-/

set_option autoImplicit false

namespace SchemaAtlas.Cli

/-- Numbers between zero and one that follow from a seed. -/
def drawsOfSeed (seed : Nat) (n : Nat) : Float :=
  ((mixHash seed.toUInt64 n.toUInt64).toNat >>> 11).toFloat / (Nat.pow 2 53).toFloat

/-- Reads a file; one that cannot be read counts as missing. -/
def readFile? (path : String) : IO (Option String) :=
  try return some (← IO.FS.readFile path) catch _ => return none

def readInputs (arguments : List String) : IO Inputs := do
  match Request.ofArguments? arguments with
  | .ok (.run options) =>
    match options.source with
    | .stdin => return { stdin := String.ofList (unixLines (← (← IO.getStdin).readToEnd).toList) }
    | .file path =>
      let content ← readFile? (plainPath path)
      return { file? := fun _ => content }
    | _ => return {}
  | _ => return {}

def write : Output → IO Unit
  | .out text => IO.println text
  | .err text => IO.eprintln text
  | .file path content => IO.FS.writeFile path content

end SchemaAtlas.Cli

open SchemaAtlas.Cli in
def main (arguments : List String) : IO UInt32 := do
  let inputs ← readInputs arguments
  let seed ← IO.rand 0 4294967295
  match run arguments false (drawsOfSeed seed) inputs with
  | .error unprintable =>
    IO.eprintln unprintable.message
    return 1
  | .ok transcript =>
    transcript.notices.forM fun notice => IO.eprintln ("warning: " ++ notice)
    transcript.outputs.forM write
    return transcript.exit.toUInt32
