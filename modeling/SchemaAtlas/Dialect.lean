import SchemaAtlas.Fault
import SchemaAtlas.Text.Blank
import SchemaAtlas.Text.Lower

/-!
The schema dialects, the tiers of readers, and what to do about references to unknown tables.
-/

set_option autoImplicit false

namespace SchemaAtlas

inductive Dialect
  | drizzle
  | prisma
  | unknown
  deriving DecidableEq, Repr

namespace Dialect

def all : List Dialect := [.drizzle, .prisma, .unknown]

def label : Dialect → String
  | .drizzle => "drizzle"
  | .prisma => "prisma"
  | .unknown => "unknown"

def displayName : Dialect → String
  | .drizzle => "Drizzle"
  | .prisma => "Prisma"
  | .unknown => "Unknown"

/-- Whether there are readers for the dialect. -/
def isSupported (dialect : Dialect) : Bool := dialect != .unknown

def supportedLabels : List String := (all.filter isSupported).map label

/-- The dialect with exactly this label. -/
def ofLabel? (label : String) : Except Refusal Dialect :=
  match all.find? (·.label = label) with
  | some dialect => .ok dialect
  | none => .error (.noMember label "Dialect")

@[simp] theorem ofLabel?_label (dialect : Dialect) : ofLabel? dialect.label = .ok dialect := by
  cases dialect <;> rfl

/-- The dialect that a caller names, in any case and with blanks around it; none named is
`unknown`. -/
def ofName? : Option String → Except Refusal Dialect
  | none => .ok .unknown
  | some name =>
    let label := String.ofList (Text.lower (Text.trim name.toList))
    match all.find? (·.label = label) with
    | some dialect => .ok dialect
    | none => .error (.unknownDialect name supportedLabels)

end Dialect

inductive Tier
  | structural
  | fallback
  deriving DecidableEq, Repr

namespace Tier

def label : Tier → String
  | .structural => "structural"
  | .fallback => "fallback"

def ofLabel? (label : String) : Except Refusal Tier :=
  match [structural, fallback].find? (·.label = label) with
  | some tier => .ok tier
  | none => .error (.noMember label "ParserTier")

@[simp] theorem ofLabel?_label (tier : Tier) : ofLabel? tier.label = .ok tier := by
  cases tier <;> rfl

end Tier

/-- What to do with a relationship that ends at an unknown table: fail, drop it with a warning, or
drop it silently. -/
inductive ErrorMode
  | fail
  | warn
  | ignore
  deriving DecidableEq, Repr

namespace ErrorMode

def all : List ErrorMode := [.fail, .warn, .ignore]

def label : ErrorMode → String
  | .fail => "fail"
  | .warn => "warn"
  | .ignore => "ignore"

def ofLabel? (label : String) : Except Refusal ErrorMode :=
  match all.find? (·.label = label) with
  | some mode => .ok mode
  | none => .error (.noMember label "ErrorMode")

@[simp] theorem ofLabel?_label (mode : ErrorMode) : ofLabel? mode.label = .ok mode := by
  cases mode <;> rfl

end ErrorMode

end SchemaAtlas
