import SchemaAtlas.Dialect
import SchemaAtlas.Graph
import SchemaAtlas.Journal

/-!
The result of an extraction: a schema or the message of a failure, never both.
-/

set_option autoImplicit false

namespace SchemaAtlas

inductive Outcome (R : Type)
  | success (schema : Schema R)
  | failure (error : String) (error_ne_empty : error ≠ "")

structure ExtractionResult (R : Type) where
  outcome : Outcome R
  dialect : Dialect := .unknown
  tier : Option Tier := none
  warnings : Diagnostics := []

namespace ExtractionResult

variable {R : Type}

def isSuccess (result : ExtractionResult R) : Bool :=
  match result.outcome with
  | .success _ => true
  | .failure .. => false

def schema? (result : ExtractionResult R) : Option (Schema R) :=
  match result.outcome with
  | .success schema => some schema
  | .failure .. => none

def error? (result : ExtractionResult R) : Option String :=
  match result.outcome with
  | .success _ => none
  | .failure error _ => some error

/-- The result with these parts. A success needs a schema and no error, a failure an error that is
not empty and no schema. -/
def ofParts? (success : Bool) (schema : Option (Schema R)) (error : Option String)
    (dialect : Dialect) (tier : Option Tier) (warnings : Diagnostics) :
    Except Refusal (ExtractionResult R) :=
  if success then
    match schema, error with
    | none, _ => .error .successWithoutData
    | some _, some _ => .error .successWithError
    | some schema, none => .ok { outcome := .success schema, dialect, tier, warnings }
  else
    match error, schema with
    | none, _ => .error .failureWithoutError
    | some error, schema =>
      if h : error = "" then .error .failureWithoutError
      else if schema.isSome then .error .failureWithData
      else .ok { outcome := .failure error h, dialect, tier, warnings }

def graph? (result : ExtractionResult R) : Except Refusal Graph :=
  match result.outcome with
  | .success schema => .ok (Graph.ofSchema schema)
  | .failure error _ => .error (.graphOfFailure error)

def members (result : ExtractionResult R) : List (String × Json R) :=
  [("success", .bool result.isSuccess),
    ("data", match result.schema? with
      | some schema => schema.toJson
      | none => .null),
    ("error", .ofText? result.error?), ("dialect", .string result.dialect.label),
    ("tier", .ofText? (result.tier.map Tier.label)),
    ("warnings", .array (result.warnings.map fun warning =>
      .object
        [("level", .string warning.severity.label), ("message", .string warning.message),
          ("context", .ofText? warning.context)]))]

def toJson (result : ExtractionResult R) : Json R := .object result.members

end ExtractionResult

end SchemaAtlas
