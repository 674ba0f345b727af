import SchemaAtlas.Fault

/-!
The release of this library and its history.
-/

set_option autoImplicit false

namespace SchemaAtlas.Release

/-- The parts of the release number, the most important first. -/
def parts : List Nat := [1, 0, 0]

def number : String := joinWith "." (parts.map toString)

def history : String := joinWith "\n" [
    "",
    "# Changelog",
    "",
    "## v1.0.0",
    "",
    "### Dual-dialect schema extraction",
    "",
    "- Drizzle ORM schemas parsed from a tree-sitter TypeScript syntax tree",
    "- Prisma schemas parsed block by block",
    "- Regex fallback parser for each dialect",
    "- Shared column groups (\x60...auditSchema\x60) and table-creator aliases",
    "- \x60relations()\x60 helpers, inline \x60.references()\x60 and Prisma \x60@relation\x60",
    "- Indexes from \x60index()\x60 / \x60uniqueIndex()\x60 and \x60@@index\x60 / \x60@@unique\x60 " ++
      "/ \x60@@id\x60",
    "",
    "**CLI**",
    "",
    "- Pretty, table and JSON output",
    "- \x60--related\x60 relationship lookups",
    "- Export to JSON",
    "",
    "### Known Limitations",
    "",
    "- Columns are not typed across files (imported tables are unresolved)",
    "- Composite \x60primaryKey()\x60 table helpers are not reported as indexes",
    ""]

end SchemaAtlas.Release
