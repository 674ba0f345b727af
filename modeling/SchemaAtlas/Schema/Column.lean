import SchemaAtlas.Fault

/-!
Columns and the foreign keys written on them.
-/

set_option autoImplicit false

namespace SchemaAtlas

structure ColumnReference where
  table : String
  column : String
  deriving DecidableEq, Repr

def ColumnReference.qualifiedName (reference : ColumnReference) : String :=
  reference.table ++ "." ++ reference.column

/-- A column of a table. It always has a name and a type. -/
structure Column where
  name : String
  type : String
  isPrimaryKey : Bool := false
  isUnique : Bool := false
  isNotNull : Bool := false
  references : Option ColumnReference := none
  defaultValue : Option String := none
  name_ne_empty : name ≠ ""
  type_ne_empty : type ≠ ""
  deriving DecidableEq, Repr

namespace Column

/-- The column with these fields, unless its name or its type is empty. -/
def ofFields? (name type : String) (isPrimaryKey isUnique isNotNull : Bool)
    (references : Option ColumnReference) (defaultValue : Option String) :
    Except Refusal Column :=
  if hn : name = "" then .error .emptyColumnName
  else if ht : type = "" then .error (.emptyColumnType name)
  else
    .ok
      { name, type, isPrimaryKey, isUnique, isNotNull, references, defaultValue
        name_ne_empty := hn, type_ne_empty := ht }

theorem ofFields?_ok {name type : String} (named : name ≠ "") (typed : type ≠ "")
    (isPrimaryKey isUnique isNotNull : Bool) (references : Option ColumnReference)
    (defaultValue : Option String) :
    ofFields? name type isPrimaryKey isUnique isNotNull references defaultValue =
      .ok
        { name, type, isPrimaryKey, isUnique, isNotNull, references, defaultValue
          name_ne_empty := named, type_ne_empty := typed } := by
  rw [ofFields?, dif_neg named, dif_neg typed]

theorem ofFields?_eq_ok {name type : String} {isPrimaryKey isUnique isNotNull : Bool}
    {references : Option ColumnReference} {defaultValue : Option String} {column : Column}
    (built : ofFields? name type isPrimaryKey isUnique isNotNull references defaultValue =
      .ok column) :
    column.name = name ∧ column.references = references := by
  unfold ofFields? at built
  split at built
  next => cases built
  next =>
    split at built
    next => cases built
    next => cases built; exact ⟨rfl, rfl⟩

theorem ofFields?_references (name type : String) (isPrimaryKey isUnique isNotNull : Bool)
    (references : Option ColumnReference) (defaultValue : Option String) :
    ofFields? name type isPrimaryKey isUnique isNotNull references defaultValue =
      (ofFields? name type isPrimaryKey isUnique isNotNull none defaultValue).map
        fun column => { column with references := references } := by
  unfold ofFields?
  split
  next => rfl
  next => split <;> rfl

/-- The flags of a column in short: primary key, unique, not null. -/
def flagsText (column : Column) : String :=
  joinWith ", "
    ((if column.isPrimaryKey then ["PK"] else []) ++ (if column.isUnique then ["UQ"] else []) ++
      (if column.isNotNull then ["NN"] else []))

end Column

end SchemaAtlas
