/-!
What can go wrong, by cause, and the sentence that reports it.
-/

set_option autoImplicit false

namespace SchemaAtlas

/-- Texts joined with a separator between neighbours. -/
def joinWith (separator : String) : List String → String
  | [] => ""
  | [text] => text
  | text :: texts => text ++ separator ++ joinWith separator texts

/-- A list of names as it is written in messages: quoted, with commas, in square brackets. -/
def quotedNames (names : List String) : String :=
  "[" ++ joinWith ", " (names.map fun name => "'" ++ name ++ "'") ++ "]"

/-- A value that is outside the range of what it is used for. -/
inductive Refusal
  | emptyColumnName
  | emptyColumnType (column : String)
  | noOpeningBracket (index : Int)
  | indexOutsideText
  | rowOfNoTables
  | layoutRowOfNoTables
  | negativeJitter
  | unknownDialect (value : String) (known : List String)
  | noMember (value : String) (type : String)
  | unknownSeverity (level : String) (known : List String)
  | missingMapping
  | emptyTypeName (name : String)
  | successWithoutData
  | successWithError
  | failureWithoutError
  | failureWithData
  | graphOfFailure (error : String)
  deriving DecidableEq, Repr

def Refusal.message : Refusal → String
  | .emptyColumnName => "column name cannot be empty"
  | .emptyColumnType column => "column '" ++ column ++ "' type cannot be empty"
  | .noOpeningBracket index => "no opening bracket at index " ++ toString index
  | .indexOutsideText => "string index out of range"
  | .rowOfNoTables => "per_row must be at least 1"
  | .layoutRowOfNoTables => "tables_per_row must be at least 1"
  | .negativeJitter => "position_jitter cannot be negative"
  | .unknownDialect value known =>
    "Unknown dialect: '" ++ value ++ "'. Must be one of " ++ quotedNames known
  | .noMember value type => "'" ++ value ++ "' is not a valid " ++ type
  | .unknownSeverity level known =>
    "Invalid warning level: " ++ level ++ ". Must be one of " ++ quotedNames known
  | .missingMapping => "mapping cannot be None"
  | .emptyTypeName name => "type '" ++ name ++ "' cannot map to an empty type"
  | .successWithoutData => "a successful ParseResult must carry data"
  | .successWithError => "a successful ParseResult cannot carry an error"
  | .failureWithoutError => "a failed ParseResult must carry an error message"
  | .failureWithData => "a failed ParseResult cannot carry data"
  | .graphOfFailure error => "cannot build a graph from a failed result: " ++ error

inductive Mistyping
  | notABoolean (setting : String)
  | notAnErrorMode
  | notATypeProvider (setting : String)
  | notAKeywordTable (setting : String) (table : String)
  | notAMapping
  deriving DecidableEq, Repr

def Mistyping.message : Mistyping → String
  | .notABoolean setting => setting ++ " must be a boolean"
  | .notAnErrorMode => "on_unresolved must be an ErrorMode instance"
  | .notATypeProvider setting => setting ++ " must be a TypeMapProvider"
  | .notAKeywordTable setting table => setting ++ " must be a " ++ table ++ " instance"
  | .notAMapping => "mapping must be a dictionary"

/-- A failure inside a type provider that a caller supplied: what the provider calls it, and its
text, which may be empty. -/
structure ProviderFault where
  kind : String
  message : String
  kind_ne_empty : kind.isEmpty = false
  deriving DecidableEq, Repr

/-- A place in a text, counted from one. -/
structure Place where
  line : Option Int := none
  column : Option Int := none
  deriving DecidableEq, Repr

/-- A reason followed by its place, which is left out without a line. -/
def Place.locate (place : Place) (reason : String) : String :=
  match place.line, place.column with
  | none, _ => reason
  | some line, none => reason ++ " (line " ++ toString line ++ ")"
  | some line, some column =>
    reason ++ " (line " ++ toString line ++ ", column " ++ toString column ++ ")"

inductive Fault
  | refused (refusal : Refusal)
  | mistyped (mistyping : Mistyping)
  | provider (fault : ProviderFault)
  /-- Any fault of an extraction that is none of the following. -/
  | extraction (reason : String)
  /-- The text is missing, blank or no text. -/
  | invalidInput (reason : String)
  /-- The text does not resemble the dialect it is read as. -/
  | dialectMismatch (reason : String) (dialect : Option String)
  /-- A structural reader cannot read the text. -/
  | structural (reason : String) (place : Place)
  /-- The text is not a well-formed script. -/
  | sourceSyntax (reason : String) (place : Place)
  /-- The text was read and declares nothing. -/
  | emptySchema (reason : String) (place : Place)
  /-- A fallback reader failed. -/
  | fallback (reason : String)
  /-- A relationship ends at a table that is not declared. -/
  | unresolvedReference (reason : String) (reference : String) (available : List String)
  deriving DecidableEq, Repr

def Fault.message : Fault → String
  | .refused refusal => refusal.message
  | .mistyped mistyping => mistyping.message
  | .provider fault => fault.message
  | .extraction reason => reason
  | .invalidInput reason => reason
  | .dialectMismatch reason _ => reason
  | .structural reason place => place.locate reason
  | .sourceSyntax reason place => place.locate reason
  | .emptySchema reason place => place.locate reason
  | .fallback reason => reason
  | .unresolvedReference reason _ available =>
    if available.isEmpty then reason
    else joinWith "\n" ((reason ++ "\n") :: "Available tables:" :: available.map ("  • " ++ ·))

/-- What stands for a fault without a message. -/
def Fault.silentName : Fault → String
  | .provider cause => cause.kind
  | _ => "unknown fault"

/-- The message of a fault, or what stands for it. -/
def Fault.describe (fault : Fault) : String :=
  if fault.message = "" then fault.silentName else fault.message

theorem Fault.describe_ne_empty (fault : Fault) : fault.describe ≠ "" := by
  unfold describe
  split
  next =>
    cases fault with
    | provider cause =>
      intro empty
      have named := cause.kind_ne_empty
      simp only [silentName] at empty
      simp [empty] at named
    | _ => simp [silentName]
  next silent => exact silent

/-- Whether the fault is one that extraction itself reports. -/
def Fault.isExtractionFault : Fault → Bool
  | .refused _ | .mistyped _ | .provider _ => false
  | _ => true

/-- A fault of extraction does not go without a message. Only foreign faults may. -/
def Fault.Speaks (fault : Fault) : Prop := fault.isExtractionFault = true → fault.message ≠ ""

theorem Fault.provider_speaks (cause : ProviderFault) : (provider cause).Speaks := by
  simp [Speaks, isExtractionFault]

/-- A fault as a fallback reader reports it: one that is not about extraction is wrapped. -/
def Fault.inFallback (dialect : String) (fault : Fault) : Fault :=
  if fault.isExtractionFault then fault
  else .fallback (dialect ++ " fallback parsing failed: " ++ fault.message)

end SchemaAtlas
