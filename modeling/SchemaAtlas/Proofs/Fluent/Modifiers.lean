import Mathlib.Data.List.Perm.Basic
import SchemaAtlas.Proofs.Fluent.Chains
import SchemaAtlas.Types.Defaults

/-!
The order of the modifiers of a column. A flag asks whether its modifier is called at all; the
reference and the default are those of the first call that sets one. So a column with at most one of
each is the same in every order of its modifiers, and calls that it does not ask for change nothing.
-/

set_option autoImplicit false

namespace SchemaAtlas.Fluent

open Script

/-- Where at most one item has a value, that value is found in every order. -/
theorem findSome?_perm {α β : Type} {f : α → Option β} {items others : List α}
    (perm : items.Perm others) (single : items.countP (fun item => (f item).isSome) ≤ 1) :
    items.findSome? f = others.findSome? f := by
  induction perm with
  | nil => rfl
  | cons item _ ih =>
    rw [List.countP_cons] at single
    rw [List.findSome?_cons, List.findSome?_cons, ih (by omega)]
  | swap first second items =>
    -- Both values at once would be two.
    cases here : f first <;> cases there : f second <;> simp_all
  | trans perm _ ih ih' =>
    rw [ih single, ih' (perm.countP_eq _ ▸ single)]

/-- The names of the modifiers that set a flag. -/
def flagModifiers (keywords : DrizzleKeywords) : List String :=
  [keywords.primaryKeyModifier, keywords.uniqueModifier, keywords.notNullModifier]

namespace Modifier

variable (keywords : DrizzleKeywords) (modifier : Modifier)

def SetsReference : Prop := modifier.name = keywords.referencesModifier

/-- Whether a modifier sets the default, by its argument or by the sentinel it stands for. -/
def SetsDefault : Prop :=
  modifier.name = keywords.defaultModifier ∨ modifier.name ∈ keywords.defaultSentinels.map (·.1)

/-- Whether a modifier says anything about its column. -/
def IsKeyword : Prop :=
  modifier.name ∈ flagModifiers keywords ∨ modifier.SetsReference keywords ∨
    modifier.SetsDefault keywords

instance : Decidable (modifier.SetsReference keywords) := inferInstanceAs (Decidable (_ = _))

instance : Decidable (modifier.SetsDefault keywords) := inferInstanceAs (Decidable (_ ∨ _))

instance : Decidable (modifier.IsKeyword keywords) := inferInstanceAs (Decidable (_ ∨ _))

theorem isSome_defaultOf?_iff :
    (Chain.defaultOf? keywords modifier).isSome = true ↔ modifier.SetsDefault keywords := by
  unfold Chain.defaultOf? SetsDefault
  split
  next same => simp [same]
  next other => simp [DrizzleKeywords.sentinelFor?, other]

end Modifier

/-- Modifiers among which any number of calls stand that are no keywords. -/
inductive Interspersed (keywords : DrizzleKeywords) : List Modifier → List Modifier → Prop
  | nil : Interspersed keywords [] []
  | keep (modifier : Modifier) {modifiers calls : List Modifier}
      (rest : Interspersed keywords modifiers calls) :
      Interspersed keywords (modifier :: modifiers) (modifier :: calls)
  | insert {call : Modifier} (idle : ¬ call.IsKeyword keywords) {modifiers calls : List Modifier}
      (rest : Interspersed keywords modifiers calls) : Interspersed keywords modifiers (call :: calls)

namespace Chain

variable {builders : List String} {base : String} {arguments : List Expr} {start : Expr}

/-- Two lists of modifiers that say the same about a column. -/
structure SameSettings (keywords : DrizzleKeywords) (modifiers others : List Modifier) : Prop where
  flags : ∀ name ∈ flagModifiers keywords,
    modifiers.any (·.name = name) = others.any (·.name = name)
  reference : modifiers.find? (·.SetsReference keywords) = others.find? (·.SetsReference keywords)
  default : modifiers.findSome? (defaultOf? keywords) = others.findSome? (defaultOf? keywords)

namespace SameSettings

variable {keywords : DrizzleKeywords} {modifiers others : List Modifier}

theorem of_perm (perm : modifiers.Perm others)
    (reference : modifiers.countP (·.SetsReference keywords) ≤ 1)
    (default : modifiers.countP (·.SetsDefault keywords) ≤ 1) :
    SameSettings keywords modifiers others where
  flags _ _ := perm.any_eq
  reference := by
    rw [List.find?_eq_findSome?_guard, List.find?_eq_findSome?_guard]
    exact findSome?_perm perm (by simpa using reference)
  default := by
    refine findSome?_perm perm (le_of_eq_of_le ?_ default)
    exact List.countP_congr fun modifier _ => by simp [Modifier.isSome_defaultOf?_iff]

theorem of_interspersed (interspersed : Interspersed keywords modifiers others) :
    SameSettings keywords modifiers others := by
  induction interspersed with
  | nil => exact ⟨fun _ _ => rfl, rfl, rfl⟩
  | keep modifier _ ih =>
    exact
      { flags := fun name flag => by rw [List.any_cons, List.any_cons, ih.flags name flag]
        reference := by rw [List.find?_cons, List.find?_cons, ih.reference]
        default := by rw [List.findSome?_cons, List.findSome?_cons, ih.default] }
  | @insert call idle _ _ _ ih =>
    obtain ⟨noFlag, noReference, noDefault⟩ : call.name ∉ flagModifiers keywords ∧
        ¬ call.SetsReference keywords ∧ ¬ call.SetsDefault keywords := by
      simpa [Modifier.IsKeyword] using idle
    have silent : defaultOf? keywords call = none := by
      simpa [← Modifier.isSome_defaultOf?_iff] using noDefault
    refine ⟨fun name flag => ?_, ?_, ?_⟩
    next =>
      have other : call.name ≠ name := fun same => noFlag (same ▸ flag)
      simp [ih.flags name flag, other]
    next => simp [ih.reference, noReference]
    next => simp [ih.default, silent]

theorem column?_eq (same : SameSettings keywords modifiers others) (types : TypeProvider)
    (isBase : IsBaseCall builders base arguments start) (name : String) :
    column? keywords types builders name (callAll start others) =
      column? keywords types builders name (callAll start modifiers) := by
  have flag {modifier : String} (known : modifier ∈ flagModifiers keywords) :
      has { base, arguments, modifiers := others } modifier =
        has { base, arguments, modifiers } modifier := (same.flags modifier known).symm
  have reference : reference? keywords { base, arguments, modifiers := others } =
      reference? keywords { base, arguments, modifiers } :=
    congrArg (fun found : Option Modifier => found.bind (referenceOf? ·.arguments))
      same.reference.symm
  have default : defaultValue? keywords { base, arguments, modifiers := others } =
      defaultValue? keywords { base, arguments, modifiers } := same.default.symm
  rw [column?, column?, ofExpr?_callAll isBase.ofExpr?, ofExpr?_callAll isBase.ofExpr?]
  simp only [List.nil_append, column]
  rw [flag (by simp [flagModifiers]), flag (by simp [flagModifiers]),
    flag (by simp [flagModifiers]), reference, default]
  rfl

end SameSettings

/-- Whether there is a column is up to its name, its base call and the types, and not to modifiers. -/
theorem exists_column?_iff (keywords : DrizzleKeywords) (types : TypeProvider)
    (isBase : IsBaseCall builders base arguments start) (name : String)
    (modifiers : List Modifier) :
    (∃ column, column? keywords types builders name (callAll start modifiers) =
        .ok (some column)) ↔
      name ≠ "" ∧ ∃ type, columnType types { base, arguments } = .ok type ∧ type ≠ "" := by
  have typed (modifiers : List Modifier) : columnType types { base, arguments, modifiers } =
      columnType types { base, arguments } := rfl
  rw [column?, ofExpr?_callAll isBase.ofExpr?]
  simp only [List.nil_append, column, typed]
  cases columnType types { base, arguments } with
  | error fault => simp [Except.map, bind, Except.bind]
  | ok type =>
    by_cases named : name = "" <;> by_cases empty : type = "" <;>
      simp [Except.map, Except.mapError, bind, Except.bind, Column.ofFields?, named, empty]

/-- Of a base call with modifiers, at most one of which is a reference and at most one of which sets
the default, the same column is read in every order of the modifiers. Calls that are no keywords may
stand anywhere among any modifiers. The name, the base call and the types alone decide whether it is
a column. -/
theorem modifiers_in_any_order (keywords : DrizzleKeywords) (types : TypeProvider)
    (isBase : IsBaseCall builders base arguments start) (name : String) :
    (∀ modifiers others : List Modifier, modifiers.Perm others →
        modifiers.countP (·.SetsReference keywords) ≤ 1 →
        modifiers.countP (·.SetsDefault keywords) ≤ 1 →
        column? keywords types builders name (callAll start others) =
          column? keywords types builders name (callAll start modifiers)) ∧
      (∀ modifiers calls : List Modifier, Interspersed keywords modifiers calls →
        column? keywords types builders name (callAll start calls) =
          column? keywords types builders name (callAll start modifiers)) ∧
      ∀ modifiers : List Modifier,
        (∃ column, column? keywords types builders name (callAll start modifiers) =
            .ok (some column)) ↔
          name ≠ "" ∧ ∃ type, columnType types { base, arguments } = .ok type ∧ type ≠ "" := by
  refine ⟨fun modifiers others perm reference default => ?_, fun modifiers calls among => ?_, ?_⟩
  next => exact (SameSettings.of_perm perm reference default).column?_eq types isBase name
  next => exact (SameSettings.of_interspersed among).column?_eq types isBase name
  next => exact exists_column?_iff keywords types isBase name

/-- `t.integer('owner_id')` in a column object with the builder `t`. -/
def ownerCall : Expr := .call (.member (.identifier "t") "integer") [.string "owner_id"]

/-- `.notNull().references(() => users.id).default(0)`. -/
def ownerModifiers : List Modifier :=
  [{ name := "notNull" },
    { name := "references", arguments := [.arrow [] (.member (.identifier "users") "id")] },
    { name := "default", arguments := [.number "0"] }]

/-- The same modifiers with two calls of `array` among them. -/
def ownerCalls : List Modifier := { name := "array" } :: ownerModifiers ++ [{ name := "array" }]

def ownerColumn : Column where
  name := "owner"
  type := "integer"
  isNotNull := true
  references := some { table := "users", column := "id" }
  defaultValue := some "0"
  name_ne_empty := by decide
  type_ne_empty := by decide

theorem modifiers_in_any_order_owner :
    IsBaseCall ["t"] "integer" [.string "owner_id"] ownerCall ∧
      ownerModifiers.Perm ownerModifiers.reverse ∧
      ownerModifiers.countP (·.SetsReference {}) ≤ 1 ∧
      ownerModifiers.countP (·.SetsDefault {}) ≤ 1 ∧ Interspersed {} ownerModifiers ownerCalls ∧
      column? {} TypeMap.drizzle.provider ["t"] "owner" (callAll ownerCall ownerModifiers.reverse) =
        .ok (some ownerColumn) ∧
      column? {} TypeMap.drizzle.provider ["t"] "owner" (callAll ownerCall ownerCalls) =
        .ok (some ownerColumn) := by
  have isBase : IsBaseCall ["t"] "integer" [.string "owner_id"] ownerCall := .ofMember (by decide)
  have perm := ownerModifiers.reverse_perm.symm
  have reference : ownerModifiers.countP (·.SetsReference {}) ≤ 1 := by decide
  have default : ownerModifiers.countP (·.SetsDefault {}) ≤ 1 := by decide
  have among : Interspersed {} ownerModifiers ownerCalls :=
    .insert (by decide) (.keep _ (.keep _ (.keep _ (.insert (by decide) .nil))))
  have written : column? {} TypeMap.drizzle.provider ["t"] "owner"
      (callAll ownerCall ownerModifiers) = .ok (some ownerColumn) := by rfl
  obtain ⟨order, further, -⟩ := modifiers_in_any_order {} TypeMap.drizzle.provider isBase "owner"
  exact ⟨isBase, perm, reference, default, among,
    (order _ _ perm reference default).trans written, (further _ _ among).trans written⟩

end Chain

end SchemaAtlas.Fluent
