import SchemaAtlas.Fault

/-!
Type dictionaries: from the type names of a dialect to the type texts of columns.
-/

set_option autoImplicit false

namespace SchemaAtlas

/-- Whatever answers for type names. It may fail, with a fault of its own or with one of those that
extraction reports. -/
structure TypeProvider where
  typeNames : List String
  resolve : String → Except Fault (Option String)
  speaks : ∀ name fault, resolve name = .error fault → fault.Speaks

/-- A dictionary from type names to types, in the order in which the names were first given. No
name stands for an empty type. -/
structure TypeMap where
  entries : List (String × String) := []
  type_ne_empty : ∀ entry ∈ entries, entry.2 ≠ "" := by simp

namespace TypeMap

/-- An entry put into a list of entries: in the place of an earlier one, or at the end. -/
def put (entries : List (String × String)) (name type : String) : List (String × String) :=
  match entries with
  | [] => [(name, type)]
  | entry :: entries =>
    if entry.1 = name then (name, type) :: entries else entry :: put entries name type

/-- The dictionary of a list of entries, where a later entry overrides an earlier one of the same
name. -/
def ofEntries? (entries : List (String × String)) : Except Refusal TypeMap :=
  let merged := entries.foldl (fun merged entry => put merged entry.1 entry.2) []
  match h : merged.find? (·.2 = "") with
  | some entry => .error (.emptyTypeName entry.1)
  | none => .ok ⟨merged, by simpa using h⟩

/-- The dictionary with further entries, which override those of the same name. -/
def withOverrides? (map : TypeMap) (overrides : List (String × String)) : Except Refusal TypeMap :=
  ofEntries? (map.entries ++ overrides)

def typeNames (map : TypeMap) : List String := map.entries.map (·.1)

/-- The type of a name; the empty name has none. -/
def resolve (map : TypeMap) (name : String) : Option String :=
  if name = "" then none else (map.entries.find? (·.1 = name)).map (·.2)

theorem resolve_eq_some {map : TypeMap} {name type : String}
    (found : map.resolve name = some type) : name ≠ "" ∧ type ≠ "" := by
  unfold resolve at found
  split at found
  next => cases found
  next named =>
    obtain ⟨entry, member, rfl⟩ := Option.map_eq_some_iff.mp found
    exact ⟨named, map.type_ne_empty entry (List.mem_of_find?_eq_some member)⟩

def hasType (map : TypeMap) (name : String) : Bool := (map.resolve name).isSome

def provider (map : TypeMap) : TypeProvider where
  typeNames := map.typeNames
  resolve name := .ok (map.resolve name)
  speaks := by simp

/-- The dictionary as a provider that fails on some names. -/
def failingProvider (map : TypeMap) (names : List String) (fault : ProviderFault) :
    TypeProvider where
  typeNames := map.typeNames
  resolve name := if name ∈ names then .error (.provider fault) else .ok (map.resolve name)
  speaks name cause failed := by
    split at failed
    next => cases failed; exact Fault.provider_speaks fault
    next => cases failed

end TypeMap

end SchemaAtlas
