import SchemaAtlas.Dialect
import SchemaAtlas.Schema.Position
import SchemaAtlas.Types.Defaults
import SchemaAtlas.Types.Keywords

/-!
Settings of an extraction, and their check.
-/

set_option autoImplicit false

namespace SchemaAtlas

/-- Checked settings. -/
structure Config (R : Type) where
  enableFallback : Bool := true
  failOnEmptyFallback : Bool := false
  deduplicateRelationships : Bool := false
  onUnresolved : ErrorMode := .warn
  layout : Layout R
  drizzleTypes : TypeProvider := TypeMap.drizzle.provider
  prismaTypes : TypeProvider := TypeMap.prisma.provider
  drizzleKeywords : DrizzleKeywords := {}
  prismaKeywords : PrismaKeywords := {}

/-- Settings as a caller gives them. `none` stands for a value of a wrong kind. -/
structure Config.Draft (R : Type) where
  enableFallback : Option Bool := some true
  failOnEmptyFallback : Option Bool := some false
  deduplicateRelationships : Option Bool := some false
  onUnresolved : Option ErrorMode := some .warn
  spacingX : R
  spacingY : R
  tablesPerRow : Int := 3
  jitter : R
  drizzleTypes : Option TypeProvider := some TypeMap.drizzle.provider
  prismaTypes : Option TypeProvider := some TypeMap.prisma.provider
  drizzleKeywords : Option DrizzleKeywords := some {}
  prismaKeywords : Option PrismaKeywords := some {}

namespace Config

variable {R : Type} [Coordinate R]

def default : Config R where
  layout := Layout.default

def Draft.default : Draft R where
  spacingX := Layout.default.spacingX
  spacingY := Layout.default.spacingY
  jitter := Layout.default.jitter

private def require {α : Type} (value : Option α) (mistyping : Mistyping) : Except Fault α :=
  match value with
  | some a => .ok a
  | none => .error (.mistyped mistyping)

/-- The settings, if every value is of its kind and the layout makes sense. Kinds are checked
before ranges, each in the order of the fields. -/
def Draft.check (draft : Draft R) : Except Fault (Config R) := do
  let enableFallback ← require draft.enableFallback (.notABoolean "enable_fallback")
  let failOnEmptyFallback ← require draft.failOnEmptyFallback (.notABoolean "fail_on_empty_fallback")
  let deduplicateRelationships ←
    require draft.deduplicateRelationships (.notABoolean "deduplicate_relationships")
  let onUnresolved ← require draft.onUnresolved .notAnErrorMode
  let drizzleTypes ← require draft.drizzleTypes (.notATypeProvider "drizzle_types")
  let prismaTypes ← require draft.prismaTypes (.notATypeProvider "prisma_types")
  let drizzleKeywords ←
    require draft.drizzleKeywords (.notAKeywordTable "drizzle_keywords" "DrizzleKeywords")
  let prismaKeywords ←
    require draft.prismaKeywords (.notAKeywordTable "prisma_keywords" "PrismaKeywords")
  if h : draft.tablesPerRow < 1 then throw (.refused .layoutRowOfNoTables)
  else if Coordinate.isNegative draft.jitter then throw (.refused .negativeJitter)
  else
    return {
      enableFallback, failOnEmptyFallback, deduplicateRelationships, onUnresolved
      layout :=
        { spacingX := draft.spacingX, spacingY := draft.spacingY
          perRow := draft.tablesPerRow.toNat, jitter := draft.jitter
          perRow_pos := by omega }
      drizzleTypes, prismaTypes, drizzleKeywords, prismaKeywords }

end Config

end SchemaAtlas
