import SchemaAtlas.Proofs.Blocks.Renamed
import SchemaAtlas.Proofs.Extraction.Detected
import SchemaAtlas.Proofs.Extraction.Handover

/-!
Extraction of a text whose models begin with another keyword, under settings that name it. The
structural reader follows the settings, the coarse one looks for the default keyword all the same.
-/

set_option autoImplicit false

namespace SchemaAtlas

open Text

variable {R : Type}

/-- Two results with the same tier and the same schema, or two failures. -/
structure ExtractionResult.Agree (first second : ExtractionResult R) : Prop where
  isSuccess : first.isSuccess = second.isSuccess
  tier : first.tier = second.tier
  schema : first.schema? = second.schema?

/-- Whether a result holds tables of the coarse reader. -/
def ExtractionResult.HasCoarseTables (result : ExtractionResult R) : Prop :=
  result.tier = some .fallback ∧ ∃ schema, result.schema? = some schema ∧ schema.tables ≠ []

namespace Extraction

@[simp] theorem failure_tier (dialect : Dialect) (journal : Journal) (message : String) :
    (failure dialect journal message : Extraction R).result.tier = none := by
  by_cases said : message = ""
  · simp [failure, result, ExtractionResult.ofParts?, said]
  · simp [result, failure_returned dialect journal said]

/-- The results of two extractions agree, except that tables of the coarse reader are lost. -/
def LosesCoarseTables (first second : Extraction R) : Prop :=
  first.result.Agree second.result ↔ ¬ first.result.HasCoarseTables

theorem losesCoarseTables_failure (dialect dialect' : Dialect) (journal journal' : Journal)
    (message message' : String) :
    LosesCoarseTables (failure dialect journal message : Extraction R)
      (failure dialect' journal' message') := by
  refine iff_of_true ⟨by simp, by simp, by simp⟩ ?_
  rintro ⟨tier, -⟩
  simp at tier

theorem losesCoarseTables_success (tier : Tier) (journal journal' : Journal) {schema : Schema R}
    (plain : tier = .fallback → schema.tables = []) :
    LosesCoarseTables (success .prisma tier journal schema) (success .prisma tier journal' schema) := by
  refine iff_of_true ⟨rfl, rfl, rfl⟩ ?_
  rintro ⟨coarse, found, same, held⟩
  cases same
  exact held (plain (Option.some.inj coarse))

variable [Coordinate R] {config config' : Config R} {draws : Nat → R} {text other : List Char}
  {enums : List Enumeration}
  (coarse : ∀ draws, ∃ tables,
    (Blocks.Scan.readSchema config draws text).outcome = .ok { tables, enums })
  (coarse' : ∀ draws, (Blocks.Scan.readSchema config' draws other).outcome = .ok { enums })

include coarse coarse'

theorem retry_loses {fault fault' : Fault} (journal journal' : Journal)
    (same : (emptyFault? config .prisma fault).isSome = (emptyFault? config' .prisma fault').isSome) :
    LosesCoarseTables (retry config draws .prisma text journal fault)
      (retry config' draws .prisma other journal' fault') := by
  obtain ⟨tables, found⟩ := coarse fun n => draws (journal.draws + n)
  have found' := coarse' fun n => draws (journal'.draws + n)
  simp only [retry, readCoarsely, found, found']
  by_cases bare : tables = []
  -- Without tables both readings come to the same enumerations, and both are reported empty or not.
  · subst bare
    have alike : (if ({ enums } : Schema R).isEmpty then emptyFault? config .prisma fault
        else none).isSome = (if ({ enums } : Schema R).isEmpty then emptyFault? config' .prisma fault'
        else none).isSome := by
      split
      next => exact same
      next => rfl
    generalize (if ({ enums } : Schema R).isEmpty then emptyFault? config .prisma fault
      else none) = reported at alike ⊢
    generalize (if ({ enums } : Schema R).isEmpty then emptyFault? config' .prisma fault'
      else none) = reported' at alike ⊢
    cases reported with
    | none =>
      cases reported' with
      | none => exact losesCoarseTables_success .fallback _ _ fun _ => rfl
      | some => cases alike
    | some =>
      cases reported' with
      | none => cases alike
      | some => exact losesCoarseTables_failure _ _ _ _ _ _
  -- Tables found by the first reading have no counterpart in the second one.
  · have full : ({ tables, enums } : Schema R).isEmpty = false := by
      simp [Schema.isEmpty, bare]
    simp only [full, Bool.false_eq_true, if_false]
    refine iff_of_false (fun agree => ?_) (not_not.mpr ⟨rfl, _, rfl, bare⟩)
    have same := agree.schema
    split at same
    next =>
      rw [failure_schema?] at same
      cases same
    next =>
      cases same
      exact bare rfl

theorem ofDialect_loses {cleaned cleaned' : List Char} {keyword : String}
    (looks : Blocks.looksLike config.prismaKeywords cleaned =
      Blocks.looksLike config'.prismaKeywords cleaned')
    (allowed : config.enableFallback = true) (allowed' : config'.enableFallback = true)
    (empty : config.failOnEmptyFallback = config'.failOnEmptyFallback)
    (read : Blocks.Respelled config.prismaKeywords.modelKeyword keyword
      (Blocks.readSchema config draws text).outcome (Blocks.readSchema config' draws other).outcome)
    (before : Journal) :
    LosesCoarseTables (ofDialect config draws .prisma text cleaned before)
      (ofDialect config' draws .prisma other cleaned' before) := by
  have reported (fault : Fault) :
      (emptyFault? config .prisma fault).isSome = (emptyFault? config' .prisma fault).isSome := by
    simp only [emptyFault?, empty]
  simp only [ofDialect, Detect.looksLike, looks, readStructurally, allowed, allowed']
  split
  next =>
    generalize Blocks.readSchema config draws text = first at read ⊢
    generalize Blocks.readSchema config' draws other = second at read ⊢
    obtain ⟨journal, outcome⟩ := first
    obtain ⟨journal', outcome'⟩ := second
    simp only at read ⊢
    cases read with
    | same =>
      cases outcome with
      | ok schema =>
        refine losesCoarseTables_success .structural _ _ fun coarsely => ?_
        cases coarsely
      | error fault =>
        cases fault with
        | unresolvedReference => exact losesCoarseTables_failure _ _ _ _ _ _
        | _ => exact retry_loses coarse coarse' _ _ (reported _)
    | unclosed block =>
      -- The two faults differ in the keyword that they name, which the second reading ignores.
      refine retry_loses coarse coarse' _ _ ?_
      simp only [emptyFault?, empty]
      rfl
  next => exact losesCoarseTables_failure _ _ _ _ _ _

end Extraction

/-- With another keyword for models, in the text and in the settings, an extraction comes to the same
result unless the coarse reader has found tables; then these are lost. -/
theorem respelled_agrees_iff [Coordinate R] (draws : Nat → R) {keyword : String}
    {text other : List Char} (respellable : Blocks.Respellable keyword (stripComments text))
    (renamed : stripComments other =
      renameWord "model".toList keyword.toList (stripComments text)) :
    let first := (extract (Config.default : Config R) draws (some text) (some "prisma")).result
    let second :=
      (extract ((Config.default : Config R).spelled keyword) draws (some other) (some "prisma")).result
    first.Agree second ↔ ¬ first.HasCoarseTables := by
  have blank := respellable.blank_iff renamed
  show Extraction.LosesCoarseTables _ _
  obtain ⟨fault, failed, empty⟩ | ⟨clean, held⟩ := Extraction.clean?_ends text
  · obtain ⟨fault', failed', -⟩ | ⟨-, held⟩ := Extraction.clean?_ends other
    · simp only [extract, failed, failed']
      exact Extraction.losesCoarseTables_failure _ _ _ _ _ _
    · exact absurd (blank.mp empty) held
  · obtain ⟨fault', -, empty⟩ | ⟨clean', -⟩ := Extraction.clean?_ends other
    · exact absurd (blank.mpr empty) held
    have named (config : Config R) (cleaned : List Char) :
        Extraction.dialectOf config (some "prisma") cleaned = pure .prisma := rfl
    simp only [extract, clean, clean', named, Journaled.pure_outcome, Option.getD_some]
    have coarse (draws : Nat → R) : ∃ tables,
        (Blocks.Scan.readSchema (Config.default : Config R) draws text).outcome =
          .ok { tables, enums := Blocks.Scan.enums (stripComments text) } :=
      Blocks.Scan.readSchema_returns rfl draws text
    have coarse' (draws : Nat → R) :
        (Blocks.Scan.readSchema ((Config.default : Config R).spelled keyword) draws other).outcome =
          .ok { enums := Blocks.Scan.enums (stripComments text) } :=
      respellable.scan_ends renamed draws
    have read : Blocks.Respelled "model" keyword
        (Blocks.readSchema (Config.default : Config R) draws text).outcome
        (Blocks.readSchema ((Config.default : Config R).spelled keyword) draws other).outcome :=
      respellable.readSchema_ends renamed draws rfl
    have looks := respellable.looksLike_eq renamed
    exact Extraction.ofDialect_loses coarse coarse' looks rfl rfl rfl read {}

def roster : List Char :=
  "model User \x7b // by mail\n id Int @id\n role Role\n\x7d\nenum Role \x7b ADMIN \x7d\n".toList

def rosterOfTables : List Char :=
  "table User \x7b // one a row\n id Int @id\n role Role\n\x7d\nenum Role \x7b ADMIN \x7d\n".toList

theorem respelled_agrees_iff_roster :
    Blocks.Respellable "table" (stripComments roster) ∧
      stripComments rosterOfTables =
        renameWord "model".toList "table".toList (stripComments roster) ∧
      (extract (Config.default : Config Int) (fun _ => 0) (some roster) (some "prisma")).result.tier =
        some .structural ∧
      (extract (Config.default : Config Int) (fun _ => 0) (some roster) (some "prisma")).result.Agree
        (extract ((Config.default : Config Int).spelled "table") (fun _ => 0) (some rosterOfTables)
          (some "prisma")).result := by
  have respellable : Blocks.Respellable "table" (stripComments roster) :=
    { heads := by decide +kernel
      unused := by decide +kernel
      word := by decide
      differs := by decide
      blocks := fun _ kind => by cases kind <;> decide +kernel
      enums := by decide +kernel }
  have renamed : stripComments rosterOfTables =
      renameWord "model".toList "table".toList (stripComments roster) := by decide +kernel
  have tier : (extract (Config.default : Config Int) (fun _ => 0) (some roster)
      (some "prisma")).result.tier = some .structural := by decide +kernel
  refine ⟨respellable, renamed, tier, ?_⟩
  refine (respelled_agrees_iff (fun _ => 0) respellable renamed).mpr fun coarse => ?_
  rw [ExtractionResult.HasCoarseTables, tier] at coarse
  cases coarse.1

/-- One model is closed and another one is not, so that the coarse reader follows. -/
def unclosedRoster : List Char := "model User \x7b\n id Int @id\n\x7d\nmodel Role \x7b\n".toList

def unclosedRosterOfTables : List Char :=
  "table User \x7b\n id Int @id\n\x7d\ntable Role \x7b\n".toList

theorem respelled_roster_loses_tables :
    Blocks.Respellable "table" (stripComments unclosedRoster) ∧
      stripComments unclosedRosterOfTables =
        renameWord "model".toList "table".toList (stripComments unclosedRoster) ∧
      (extract (Config.default : Config Int) (fun _ => 0) (some unclosedRoster)
        (some "prisma")).result.tier = some .fallback ∧
      (extract (Config.default : Config Int) (fun _ => 0) (some unclosedRoster)
        (some "prisma")).result.schema?.map (·.tableIds) = some ["User"] ∧
      (extract ((Config.default : Config Int).spelled "table") (fun _ => 0)
        (some unclosedRosterOfTables) (some "prisma")).result.schema?.map (·.tableIds) = some [] := by
  refine ⟨?_, by decide +kernel, by decide +kernel, by decide +kernel, by decide +kernel⟩
  exact
    { heads := by decide +kernel
      unused := by decide +kernel
      word := by decide
      differs := by decide
      blocks := fun _ kind => by cases kind <;> decide +kernel
      enums := by decide +kernel }

end SchemaAtlas
