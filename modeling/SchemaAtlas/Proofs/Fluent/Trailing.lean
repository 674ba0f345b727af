import SchemaAtlas.Fluent.Table
import SchemaAtlas.Proofs.Fluent.Chains

/-!
Calls behind a table or an index: `pgTable(..).enableRLS()`, `index(..).on(..).where(..)`. They are
looked through one by one from the outside, and none of them is taken for what stands beneath it as
long as it has another name.
-/

set_option autoImplicit false

namespace SchemaAtlas.Fluent

open Script Chain

/-- What is read through each call is read through all of them. -/
theorem read_callAll {α : Type} {read : Expr → α} {calls : List Modifier}
    (through : ∀ call ∈ calls, ∀ receiver, read (call.callOn receiver) = read receiver)
    (start : Expr) : read (callAll start calls) = read start := by
  -- The first call is the innermost one, so the start is general.
  induction calls generalizing start with
  | nil => rfl
  | cons call calls ih =>
    have later := ih (fun other member => through other (.tail _ member)) (call.callOn start)
    exact later.trans (through call (.head _) start)

section Tables

variable {keywords : DrizzleKeywords} {creators : List String}

/-- What is called to make a table. -/
inductive MakesTable (keywords : DrizzleKeywords) (creators : List String) : Expr → Prop
  | ofConstructor {name : String} (known : name ∈ keywords.tableConstructors) :
      MakesTable keywords creators (.identifier name)
  | ofAlias {name : String} (known : name ∈ creators) :
      MakesTable keywords creators (.identifier name)
  | ofCreator {name : String} (known : name ∈ keywords.tableCreators) (arguments : List Expr) :
      MakesTable keywords creators (.call (.identifier name) arguments)
  | ofSchema (schema : Expr) :
      MakesTable keywords creators (.member schema keywords.schemaTableMethod)

theorem makesTable_iff {callee : Expr} :
    makesTable keywords creators callee = true ↔ MakesTable keywords creators callee := by
  constructor
  next =>
    intro made
    unfold makesTable at made
    split at made
    next name =>
      rcases Bool.or_eq_true_iff.mp made with known | known
      · exact .ofConstructor (of_decide_eq_true known)
      · exact .ofAlias (of_decide_eq_true known)
    next => exact .ofCreator (of_decide_eq_true made) _
    next =>
      rw [of_decide_eq_true made]
      exact .ofSchema _
    next => cases made
  next =>
    rintro (known | known | known | _) <;> simp [makesTable, *]

/-- The table call of an expression, by its callee and its arguments, under the calls chained to
it. -/
def tableCall? (keywords : DrizzleKeywords) (creators : List String) :
    Expr → Option (Expr × List Expr)
  | .call (.member object method) arguments =>
    if makesTable keywords creators (.member object method) then
      some (.member object method, arguments)
    else tableCall? keywords creators object
  | .call callee arguments =>
    if makesTable keywords creators callee then some (callee, arguments) else none
  | _ => none

theorem tableArguments?_eq (value : Expr) :
    tableArguments? keywords creators value =
      (tableCall? keywords creators value).map (·.2) := by
  fun_induction tableCall? keywords creators value with
  | case1 object method arguments made => simp [tableArguments?, made]
  | case2 object method arguments other ih => simp [tableArguments?, other, ih]
  | case3 callee arguments plain made =>
    rw [tableArguments?, if_pos made, Option.map_some]
    exact plain
  | case4 callee arguments plain other =>
    rw [tableArguments?, if_neg other, Option.map_none]
    exact plain
  | case5 value noCall => cases value <;> simp_all [tableArguments?]

theorem tableCall?_own {callee : Expr} (makes : MakesTable keywords creators callee)
    (arguments : List Expr) :
    tableCall? keywords creators (.call callee arguments) = some (callee, arguments) := by
  have made := makesTable_iff.mpr makes
  cases makes <;> rw [tableCall?, if_pos made] <;> simp

theorem tableCall?_callOn {call : Modifier} (other : call.name ≠ keywords.schemaTableMethod)
    (receiver : Expr) :
    tableCall? keywords creators (call.callOn receiver) = tableCall? keywords creators receiver := by
  rw [Modifier.callOn, tableCall?, if_neg (by simpa [makesTable] using other)]

end Tables

section Indexes

variable {keywords : DrizzleKeywords}

/-- An index helper with the columns that it is called on. -/
def indexOn (keywords : DrizzleKeywords) (helper : String) (given columns : List Expr) : Expr :=
  .call (.member (.call (.identifier helper) given) keywords.indexOnMethod) columns

theorem onCall_callOn {call : Modifier} (other : call.name ≠ keywords.indexOnMethod)
    (receiver : Expr) :
    OnCall.ofExpr? keywords (call.callOn receiver) = OnCall.ofExpr? keywords receiver := by
  rw [Modifier.callOn, OnCall.ofExpr?, if_neg other]

theorem indexCall_callOn {call : Modifier} (other : call.name ≠ keywords.indexOnMethod)
    (name : String) (receiver : Expr) :
    IndexCall.ofExpr? keywords name (call.callOn receiver) =
      IndexCall.ofExpr? keywords name receiver := by
  rw [IndexCall.ofExpr?, onCall_callOn other, IndexCall.ofExpr?]

theorem indexCall_indexOn {helper : String} (known : helper ∈ keywords.indexHelpers) (name : String)
    (given columns : List Expr) :
    (IndexCall.ofExpr? keywords name (indexOn keywords helper given columns)).isSome = true := by
  simp [IndexCall.ofExpr?, indexOn, OnCall.ofExpr?, known]

end Indexes

/-- Calls behind a table call that are not named like the table method of a schema leave it the table
call of the expression, whichever of its forms it has. Calls behind an index that are not named like
the method for its columns leave its index with its name, columns and uniqueness, and the names of
its table, as they are. -/
theorem trailing_calls_are_transparent (keywords : DrizzleKeywords) (creators : List String) :
    (∀ (callee : Expr) (arguments : List Expr) (calls : List Modifier),
        MakesTable keywords creators callee →
        (∀ call ∈ calls, call.name ≠ keywords.schemaTableMethod) →
        tableCall? keywords creators (callAll (.call callee arguments) calls) =
            some (callee, arguments) ∧
          tableArguments? keywords creators (callAll (.call callee arguments) calls) =
            some arguments) ∧
      ∀ (name helper : String) (given columns : List Expr) (calls : List Modifier),
        helper ∈ keywords.indexHelpers → (∀ call ∈ calls, call.name ≠ keywords.indexOnMethod) →
        ∃ index, IndexCall.ofExpr? keywords name (indexOn keywords helper given columns) =
            some index ∧
          IndexCall.ofExpr? keywords name (callAll (indexOn keywords helper given columns) calls) =
            some index := by
  constructor
  next =>
    intro callee arguments calls makes apart
    have found : tableCall? keywords creators (callAll (.call callee arguments) calls) =
        some (callee, arguments) :=
      (read_callAll (fun call member => tableCall?_callOn (apart call member)) _).trans
        (tableCall?_own makes arguments)
    exact ⟨found, by rw [tableArguments?_eq, found, Option.map_some]⟩
  next =>
    intro name helper given columns calls known apart
    obtain ⟨index, found⟩ := Option.isSome_iff_exists.mp
      (indexCall_indexOn known name given columns)
    refine ⟨index, found, Eq.trans ?_ found⟩
    exact read_callAll (fun call member => indexCall_callOn (apart call member) name) _

/-- `.enableRLS().on('insert')`: the name of the method for columns means nothing behind a table. -/
def securityCalls : List Modifier :=
  [{ name := "enableRLS" }, { name := "on", arguments := [.string "insert"] }]

/-- `uniqueIndex('by_name').on(users.last, users.first)`. -/
def nameIndex : Expr :=
  indexOn {} "uniqueIndex" [.string "by_name"]
    [.member (.identifier "users") "last", .member (.identifier "users") "first"]

/-- `.where('active').table()`: neither call names columns. -/
def conditionCalls : List Modifier :=
  [{ name := "where", arguments := [.string "active"] }, { name := "table" }]

theorem trailing_calls_are_transparent_users :
    MakesTable {} [] (.call (.identifier "pgTableCreator") [.identifier "prefixed"]) ∧
      (∀ call ∈ securityCalls, call.name ≠ "table") ∧ "uniqueIndex" ∈ ["index", "uniqueIndex"] ∧
      (∀ call ∈ conditionCalls, call.name ≠ "on") ∧
      tableArguments? {} []
          (callAll
            (.call (.call (.identifier "pgTableCreator") [.identifier "prefixed"])
              [.string "users", .object []])
            securityCalls) =
        some [.string "users", .object []] ∧
      IndexCall.ofExpr? {} "names" (callAll nameIndex conditionCalls) =
        some
          { index := { name := "by_name", columns := ["last", "first"], isUnique := true }
            owners := ["users", "users"] } := by
  have makes : MakesTable {} []
      (.call (.identifier "pgTableCreator") [.identifier "prefixed"]) := .ofCreator (by decide) _
  have security : ∀ call ∈ securityCalls, call.name ≠ "table" := by decide
  have condition : ∀ call ∈ conditionCalls, call.name ≠ "on" := by decide
  have helper : "uniqueIndex" ∈ ["index", "uniqueIndex"] := by decide
  obtain ⟨tables, indexes⟩ := trailing_calls_are_transparent {} []
  obtain ⟨index, alone, chained⟩ := indexes "names" "uniqueIndex" [.string "by_name"]
    [.member (.identifier "users") "last", .member (.identifier "users") "first"] conditionCalls
    helper condition
  have written : IndexCall.ofExpr? {} "names" nameIndex =
      some
        { index := { name := "by_name", columns := ["last", "first"], isUnique := true }
          owners := ["users", "users"] } := by rfl
  exact ⟨makes, security, helper, condition, (tables _ _ _ makes security).2,
    chained.trans (alone.symm.trans written)⟩

end SchemaAtlas.Fluent
