import SchemaAtlas.Fault

/-!
Warnings that an extraction collects on its way.
-/

set_option autoImplicit false

namespace SchemaAtlas

inductive Severity
  | info
  | warning
  | error
  deriving DecidableEq, Repr

def Severity.all : List Severity := [.info, .warning, .error]

def Severity.label : Severity → String
  | .info => "INFO"
  | .warning => "WARNING"
  | .error => "ERROR"

/-- The severity with exactly this label. -/
def Severity.ofLabel? (label : String) : Except Refusal Severity :=
  match Severity.all.find? (·.label = label) with
  | some severity => .ok severity
  | none => .error (.unknownSeverity label (Severity.all.map Severity.label))

@[simp] theorem Severity.ofLabel?_label (severity : Severity) :
    Severity.ofLabel? severity.label = .ok severity := by
  cases severity <;> rfl

structure Warning where
  severity : Severity
  message : String
  context : Option String := none
  deriving DecidableEq, Repr

/-- A declaration was dropped because it names a table that is not declared. -/
def Warning.unresolved (kind reference : String) (context : Option String := none) : Warning where
  severity := .warning
  message := kind ++ " dropped: table '" ++ reference ++ "' is not declared in this schema."
  context := context

/-- The structural reader gave up and the fallback reader took over. -/
def Warning.handover (dialect reason : String) (context : Option String := none) : Warning where
  severity := .warning
  message := dialect ++ " structural parser failed (" ++ reason ++
    "). Results come from the fallback parser and may be incomplete."
  context := context

def redeclaration (table : String) : String :=
  "Table '" ++ table ++ "' is declared more than once. " ++
    "The later declaration replaces the earlier one."

/-- Warnings in the order in which they were added. -/
abbrev Diagnostics := List Warning

namespace Diagnostics

def add (diagnostics : Diagnostics) (warning : Warning) : Diagnostics := diagnostics ++ [warning]

def ofSeverity (diagnostics : Diagnostics) (severity : Severity) : Diagnostics :=
  diagnostics.filter (·.severity = severity)

def hasErrors (diagnostics : Diagnostics) : Bool := diagnostics.any (·.severity = .error)

def summary (diagnostics : Diagnostics) : List (Severity × Nat) :=
  Severity.all.map fun severity => (severity, (diagnostics.ofSeverity severity).length)

end Diagnostics

end SchemaAtlas
