/-!
The names that have a meaning in each dialect, and the defaults that stand for generated values. A
caller may replace any of them.
-/

set_option autoImplicit false

namespace SchemaAtlas

namespace Sentinel

def now : String := "now()"
def uuid : String := "gen_random_uuid()"
def autoincrement : String := "autoincrement"
def literal : String := "default"

end Sentinel

/-- Function and method names of Drizzle schemas. -/
structure DrizzleKeywords where
  tableConstructors : List String := ["pgTable", "mysqlTable", "sqliteTable", "singlestoreTable"]
  tableCreators : List String := ["pgTableCreator", "mysqlTableCreator", "sqliteTableCreator"]
  schemaTableMethod : String := "table"
  enumConstructors : List String := ["pgEnum"]
  relationsHelper : String := "relations"
  oneHelper : String := "one"
  manyHelper : String := "many"
  indexHelpers : List String := ["index", "uniqueIndex"]
  uniqueIndexHelper : String := "uniqueIndex"
  indexOnMethod : String := "on"
  primaryKeyModifier : String := "primaryKey"
  uniqueModifier : String := "unique"
  notNullModifier : String := "notNull"
  referencesModifier : String := "references"
  defaultModifier : String := "default"
  defaultSentinels : List (String × String) :=
    [("defaultNow", Sentinel.now), ("defaultRandom", Sentinel.uuid),
      ("autoincrement", Sentinel.autoincrement), ("$defaultFn", Sentinel.literal),
      ("$default", Sentinel.literal)]
  deriving DecidableEq, Repr

/-- The default that a modifier stands for; the first entry of its name counts. -/
def DrizzleKeywords.sentinelFor? (keywords : DrizzleKeywords) (modifier : String) : Option String :=
  (keywords.defaultSentinels.find? (·.1 = modifier)).map (·.2)

/-- Block keywords and attribute names of Prisma schemas. -/
structure PrismaKeywords where
  modelKeyword : String := "model"
  enumKeyword : String := "enum"
  idAttribute : String := "id"
  uniqueAttribute : String := "unique"
  defaultAttribute : String := "default"
  relationAttribute : String := "relation"
  nativeTypeMark : String := "db."
  indexAttributes : List String := ["index", "unique", "id"]
  uniqueIndexAttributes : List String := ["unique", "id"]
  mapAttribute : String := "map"
  uuidGenerators : List String := ["uuid(", "cuid("]
  nowGenerator : String := "now()"
  autoincrementGenerator : String := "autoincrement()"
  serialTypes : List (String × String) := [("Int", "serial"), ("BigInt", "bigserial")]
  deriving DecidableEq, Repr

end SchemaAtlas
