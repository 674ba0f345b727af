import SchemaAtlas.Types.Provider

/-!
The type dictionaries that are used unless a caller brings others.
-/

set_option autoImplicit false

namespace SchemaAtlas.TypeMap

/-- Column builders and the column types they create. -/
def drizzle : TypeMap where
  entries := [
    ("bigint", "bigint"), ("bigserial", "bigserial"), ("bit", "bit"), ("blob", "blob"),
    ("boolean", "boolean"), ("bytea", "bytea"), ("char", "char"), ("cidr", "cidr"),
    ("date", "date"), ("datetime", "datetime"), ("decimal", "decimal"),
    ("doublePrecision", "double precision"), ("double", "double"), ("float", "float"),
    ("geometry", "geometry"), ("inet", "inet"), ("int", "int"), ("integer", "integer"),
    ("interval", "interval"), ("json", "json"), ("jsonb", "jsonb"), ("line", "line"),
    ("macaddr", "macaddr"), ("macaddr8", "macaddr8"), ("mediumint", "mediumint"),
    ("numeric", "numeric"), ("pgEnum", "enum"), ("point", "point"), ("real", "real"),
    ("serial", "serial"), ("smallint", "smallint"), ("smallserial", "smallserial"),
    ("text", "text"), ("time", "time"), ("timestamp", "timestamp"),
    ("timestamptz", "timestamptz"), ("tinyint", "tinyint"), ("uuid", "uuid"),
    ("varbinary", "varbinary"), ("varchar", "varchar"), ("vector", "vector"), ("xml", "xml"),
    ("year", "year")]

/-- Scalar types and the column types that hold them. -/
def prisma : TypeMap where
  entries := [
    ("String", "text"), ("Int", "integer"), ("BigInt", "bigint"), ("Float", "double precision"),
    ("Decimal", "numeric"), ("Boolean", "boolean"), ("DateTime", "timestamp"), ("Json", "jsonb"),
    ("Bytes", "bytea")]

end SchemaAtlas.TypeMap
