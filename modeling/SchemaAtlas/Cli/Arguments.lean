import SchemaAtlas.Cli.Options
import SchemaAtlas.Text.Digit
import SchemaAtlas.Text.Pattern
import SchemaAtlas.Text.Quoted

/-!
Reading the arguments of a command line. A switch may be shortened as long as it stays unique, its
value may follow it or be joined to it, and behind `--` everything is a file name.
-/

set_option autoImplicit false

namespace SchemaAtlas.Cli

open Text

inductive UsageFault
  | ambiguous (argument : String) (matching : List String)
  | missingValue (switch : Switch)
  | unwantedValue (switch : Switch) (value : String)
  | noChoice (switch : Switch) (value : String) (choices : List String)
  | unrecognized (arguments : List String)
  deriving DecidableEq, Repr

/-- A fault of a switch, with all names of the switch. -/
def Switch.complain (switch : Switch) (reason : String) : String :=
  "argument " ++ joinWith "/" switch.names ++ ": " ++ reason

def UsageFault.message : UsageFault → String
  | .ambiguous argument matching =>
    "ambiguous option: " ++ argument ++ " could match " ++ joinWith ", " matching
  | .missingValue switch => switch.complain "expected one argument"
  | .unwantedValue switch value => switch.complain ("ignored explicit argument " ++ quoted value)
  | .noChoice switch value choices =>
    switch.complain ("invalid choice: " ++ quoted value ++ " (choose from " ++
      joinWith ", " (choices.map quoted) ++ ")")
  | .unrecognized arguments => "unrecognized arguments: " ++ joinWith " " arguments

/-- A value that is joined to its switch; `marked` if an equals sign stands between. -/
structure JoinedValue where
  marked : Bool
  value : String
  deriving DecidableEq, Repr

inductive Argument
  | plain (text : String)
  | switch (switch : Switch) (name : String) (value : Option JoinedValue)
  | unknown (text : String)
  /-- The mark behind which there are no switches. -/
  | separator
  deriving DecidableEq, Repr

/-- The parts of a text before and behind its first equals sign. -/
def splitValue (text : String) : String × Option JoinedValue :=
  match text.toList.span (· ≠ '=') with
  | (_, []) => (text, none)
  | (name, _ :: value) =>
    (String.ofList name, some { marked := true, value := String.ofList value })

/-- Whether a text is a minus sign and a number. -/
def isNegativeNumber (cs : List Char) : Bool :=
  let isDigits (cs : List Char) := !cs.isEmpty && cs.all fun c => (digitValue? c).isSome
  match cs with
  | '-' :: cs =>
    isDigits cs ||
      match cs.span (· ≠ '.') with
      | (whole, _ :: fraction) => (whole.isEmpty || isDigits whole) && isDigits fraction
      | _ => false
  | _ => false

def candidates (text : String) : List (String × Argument) :=
  let named (name : String) (switch : Switch) (value : Option JoinedValue) : String × Argument :=
    (name, .switch switch name value)
  match text.toList with
  | '-' :: '-' :: _ =>
    let (short, value) := splitValue text
    (Switch.table.filter fun (name, _) => beginsWith short.toList name.toList).map
      fun (name, switch) => named name switch value
  | dash :: letter :: rest =>
    Switch.table.filterMap fun (name, switch) =>
      if name.toList = [dash, letter] then
        some (named name switch (some { marked := false, value := String.ofList rest }))
      else if beginsWith text.toList name.toList then some (named name switch none)
      else none
  | _ => []

def Argument.ofText? (text : String) : Except UsageFault Argument :=
  if !beginsWith ['-'] text.toList || text = "-" then .ok (.plain text)
  else
    match Switch.ofName? text with
    | some known => .ok (.switch known text none)
    | none =>
      let (name, value) := splitValue text
      match value, Switch.ofName? name with
      | some value, some known => .ok (.switch known name (some value))
      | _, _ =>
        match candidates text with
        | [(_, argument)] => .ok argument
        | [] =>
          if isNegativeNumber text.toList || ' ' ∈ text.toList then .ok (.plain text)
          else .ok (.unknown text)
        | several => .error (.ambiguous text (several.map (·.1)))

def Argument.ofTexts? : List String → Except UsageFault (List Argument)
  | [] => .ok []
  | text :: texts =>
    if text = "--" then .ok (.separator :: texts.map .plain)
    else do return (← Argument.ofText? text) :: (← Argument.ofTexts? texts)

def Argument.text : Argument → String
  | .plain text | .unknown text => text
  | .switch _ name none => name
  | .switch _ name (some value) => name ++ (if value.marked then "=" else "") ++ value.value
  | .separator => "--"

inductive Request
  | help
  | run (options : Options)
  deriving DecidableEq, Repr

/-- What has been read of a command line: the options so far, whether a file may still come, and
the arguments that are for nothing. -/
structure Progress where
  options : Options := {}
  wantsFile : Bool := true
  extras : List String := []
  deriving DecidableEq, Repr

namespace Progress

/-- Sets a switch to a value, which must be one of its choices. -/
def set (progress : Progress) (switch : Switch) (value : String) : Except UsageFault Progress :=
  match switch.choices? with
  | some choices =>
    if value ∈ choices then .ok { progress with options := switch.apply value progress.options }
    else .error (.noChoice switch value choices)
  | none => .ok { progress with options := switch.apply value progress.options }

def addExtra (progress : Progress) (text : String) : Progress :=
  { progress with extras := progress.extras ++ [text] }

/-- Takes the arguments behind the last switch: the file, if one may still come, and extras. -/
def finish (progress : Progress) (arguments : List Argument) : Progress :=
  let texts := arguments.map Argument.text
  if progress.wantsFile then
    let (file, rest) := match arguments, texts with
      | .separator :: .plain _ :: _, _ :: file :: rest => (some file, rest)
      | .separator :: _, _ :: rest => (none, rest)
      | .plain _ :: .separator :: _, file :: _ :: rest => (some file, rest)
      | _, file :: rest => (some file, rest)
      | _, [] => (none, [])
    { progress with
      wantsFile := false
      options := { progress.options with file }
      extras := progress.extras ++ rest }
  else { progress with extras := progress.extras ++ texts }

end Progress

/-- What a cluster of letters behind one dash, of which only the first takes no value, goes on
with. -/
inductive Tail
  | done
  | value (switch : Switch) (value : String)
  | next (switch : Switch)
  | unknown (text : String)
  deriving DecidableEq, Repr

/-- Reads on behind the help letter, which is repeated at will. -/
def clusterTail : List Char → Except UsageFault Tail
  | [] => .ok .done
  | letter :: rest =>
    match Switch.ofName? (String.ofList ['-', letter]) with
    | none => .ok (.unknown (String.ofList ('-' :: letter :: rest)))
    | some switch =>
      if switch.takesValue then
        match rest with
        | [] => .ok (.next switch)
        | '=' :: value => .ok (.value switch (String.ofList value))
        | value => .ok (.value switch (String.ofList value))
      else
        match rest with
        | '=' :: value => .error (.unwantedValue switch (String.ofList value))
        | '-' :: value => .error (.unwantedValue switch (String.ofList ('-' :: value)))
        | rest => clusterTail rest

/-- Reads a joined value of a switch that takes none. Only the help letter may have others behind
it; it counts unless one of them is at fault. -/
def unwanted (switch : Switch) (name : String) (value : JoinedValue) (followed : Bool) :
    Except UsageFault Request :=
  let refuse := .error (.unwantedValue switch value.value)
  if beginsWith ['-', '-'] name.toList || value.value = "" || value.marked ||
      beginsWith ['-'] value.value.toList then refuse
  else do
    match ← clusterTail value.value.toList with
    | .next switch => if followed then return .help else throw (.missingValue switch)
    | _ => return .help

/-- Whether a switch is among the arguments, known or not. -/
def hasSwitch (arguments : List Argument) : Bool :=
  arguments.any fun argument =>
    match argument with
    | .switch .. | .unknown _ => true
    | _ => false

def readArguments (progress : Progress) : List Argument → Except UsageFault Request
  | [] => complete (progress.finish [])
  | argument :: rest =>
    if !hasSwitch (argument :: rest) then complete (progress.finish (argument :: rest))
    else
      match argument with
      | .separator => readArguments progress rest
      | .plain text =>
        if progress.wantsFile then
          readArguments
            { progress with
              wantsFile := false, options := { progress.options with file := some text } } rest
        else readArguments (progress.addExtra text) rest
      | .unknown text => readArguments (progress.addExtra text) rest
      | .switch switch name value? =>
        if switch.takesValue then
          match value?, rest with
          | some value, rest => do readArguments (← progress.set switch value.value) rest
          | none, .plain value :: rest => do readArguments (← progress.set switch value) rest
          | none, _ => .error (.missingValue switch)
        else
          match value? with
          | some value =>
            unwanted switch name value (rest.head?.any fun next => next matches .plain _)
          | none =>
            if switch = .help then .ok .help
            else do readArguments (← progress.set switch "") rest
where
  complete (progress : Progress) : Except UsageFault Request :=
    if progress.extras.isEmpty then .ok (.run progress.options)
    else .error (.unrecognized progress.extras)

def Request.ofArguments? (arguments : List String) : Except UsageFault Request := do
  readArguments {} (← Argument.ofTexts? arguments)

end SchemaAtlas.Cli
