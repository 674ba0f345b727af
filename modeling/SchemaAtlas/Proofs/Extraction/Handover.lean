import SchemaAtlas.Proofs.Extraction.Draws
import SchemaAtlas.Proofs.Extraction.Results

/-!
An extraction with and without a second reading, on the same text. The second reading only replaces
a failure, and it brings what the coarse reader makes of the text by itself.
-/

set_option autoImplicit false

namespace SchemaAtlas

open Journaled

variable {R : Type}

def Config.retrying (config : Config R) (allowed : Bool) : Config R :=
  { config with enableFallback := allowed }

namespace Extraction

theorem failure_warnings (dialect : Dialect) (journal : Journal) {message : String}
    (said : message ≠ "") :
    (failure dialect journal message : Extraction R).result.warnings = journal.warnings := by
  rw [result, failure_returned dialect journal said]

@[simp] theorem failure_isSuccess (dialect : Dialect) (journal : Journal) (message : String) :
    (failure dialect journal message : Extraction R).result.isSuccess = false := by
  have none := failure_schema? (R := R) dialect journal message
  unfold ExtractionResult.schema? at none
  unfold ExtractionResult.isSuccess
  split at none
  next => cases none
  next => simp only

variable [Coordinate R] (config : Config R) (draws : Nat → R)

/-- How the structural reading of a text ends, and the dialect that it is read as. There is none if
the text is blank, of no known dialect or without declarations. -/
def structuralEnd? (text : Option (List Char)) (name : Option String) :
    Option (Dialect × Except Fault (Schema R)) :=
  match clean? text with
  | .error _ => none
  | .ok cleaned =>
    match (dialectOf config name cleaned).outcome with
    | .error _ => none
    | .ok dialect =>
      if Detect.looksLike config.drizzleKeywords config.prismaKeywords cleaned dialect then
        some (dialect, (readStructurally config draws dialect (text.getD [])).outcome)
      else none

theorem readStructurally_retrying (allowed : Bool) (dialect : Dialect) (text : List Char) :
    readStructurally (config.retrying allowed) draws dialect text =
      readStructurally config draws dialect text := by
  have collected : Fluent.collect (config.retrying allowed) = Fluent.collect config :=
    Fluent.collect_congr rfl rfl rfl
  have tables : Blocks.readTables (config.retrying allowed) = Blocks.readTables config :=
    Blocks.readTables_congr rfl rfl rfl
  cases dialect with
  | drizzle =>
    simp only [readStructurally, Fluent.readSchema, Fluent.schemaOf, collected]
    rfl
  | prisma | unknown =>
    simp only [readStructurally, Blocks.readSchema, Blocks.schemaOf, tables]
    rfl

theorem readCoarsely_retrying (allowed : Bool) (dialect : Dialect) (text : List Char) :
    readCoarsely (config.retrying allowed) draws dialect text =
      readCoarsely config draws dialect text := by
  cases dialect <;> rfl

/-- How two extractions of a text end of which only the second one may read it again. -/
inductive Retries (config : Config R) (draws : Nat → R) (text : List Char) :
    Option (Dialect × Except Fault (Schema R)) → Extraction R → Extraction R → Prop
  | unread (dialect : Dialect) (journal : Journal) (message : String) :
    Retries config draws text none (failure dialect journal message)
      (failure dialect journal message)
  | read (dialect : Dialect) (journal : Journal) (schema : Schema R) :
    Retries config draws text (some (dialect, .ok schema))
      (success dialect .structural journal schema) (success dialect .structural journal schema)
  | unresolved (dialect : Dialect) (journal : Journal) (fault : Fault)
    (foreign : fault.isUnresolvedReference = true) :
    Retries config draws text (some (dialect, .error fault))
      (failure dialect journal fault.message) (failure dialect journal fault.message)
  | reread (dialect : Dialect) (journal : Journal) (fault : Fault)
    (other : fault.isUnresolvedReference = false) (speaks : fault.Speaks) :
    Retries config draws text (some (dialect, .error fault))
      (failure dialect journal fault.describe) (retry config draws dialect text journal fault)

theorem retry_retrying (dialect : Dialect) (text : List Char) (journal : Journal) (fault : Fault) :
    retry (config.retrying true) draws dialect text journal fault =
      retry config draws dialect text journal fault := by
  have report : emptyFault? (config.retrying true) dialect fault =
      emptyFault? config dialect fault := rfl
  simp only [retry, readCoarsely_retrying, report]

theorem ofDialect_retries (dialect : Dialect) (text cleaned : List Char) (before : Journal) :
    Retries config draws text
      (if Detect.looksLike config.drizzleKeywords config.prismaKeywords cleaned dialect then
        some (dialect, (readStructurally config draws dialect text).outcome)
      else none)
      (ofDialect (config.retrying false) draws dialect text cleaned before)
      (ofDialect (config.retrying true) draws dialect text cleaned before) := by
  have same (allowed : Bool) :
      (config.retrying allowed).drizzleKeywords = config.drizzleKeywords ∧
        (config.retrying allowed).prismaKeywords = config.prismaKeywords ∧
        (config.retrying allowed).enableFallback = allowed := ⟨rfl, rfl, rfl⟩
  have kept := readStructurally_keeps config draws dialect text
  simp only [ofDialect, same, readStructurally_retrying]
  split
  next =>
    cases ended : (readStructurally config draws dialect text).outcome with
    | ok schema => exact .read dialect _ schema
    | error fault =>
      have speaks := kept.fault fault ended
      cases fault with
      | unresolvedReference reason reference available => exact .unresolved dialect _ _ rfl
      | _ =>
        simp only [retry_retrying]
        exact .reread dialect _ _ rfl speaks
  next => exact .unread dialect before _

theorem extract_retries (text : Option (List Char)) (name : Option String) :
    Retries config draws (text.getD []) (structuralEnd? config draws text name)
      (extract (config.retrying false) draws text name)
      (extract (config.retrying true) draws text name) := by
  have found (allowed : Bool) (cleaned : List Char) :
      dialectOf (config.retrying allowed) name cleaned = dialectOf config name cleaned := rfl
  unfold extract structuralEnd?
  cases clean? text with
  | error fault => exact .unread .unknown {} fault.message
  | ok cleaned =>
    simp only [found]
    cases (dialectOf config name cleaned).outcome with
    | error fault => exact .unread .unknown _ fault.message
    | ok dialect => exact ofDialect_retries config draws dialect (text.getD []) cleaned _

variable {config draws}

/-- What a second reading says and brings, next to the same reading on its own. -/
theorem retry_reads (dialect : Dialect) (text : List Char) (journal : Journal) {fault : Fault}
    (speaks : fault.Speaks) (alone : Nat → R) :
    (retry config draws dialect text journal fault).result.warnings =
        journal.warnings ++ [.handover dialect.displayName fault.describe] ++
          (readCoarsely config alone dialect text).journal.warnings ∧
      ∀ schema, (retry config draws dialect text journal fault).result.schema? = some schema →
        (retry config draws dialect text journal fault).result.tier = some .fallback ∧
          ∃ found, (readCoarsely config alone dialect text).outcome = .ok found ∧
            schema.alignLeft = found.alignLeft := by
  have kept := readCoarsely_keeps config alone dialect text
  -- The second reading has other numbers before it than it has alone.
  obtain ⟨said, ends⟩ :=
    readCoarsely_alike config (fun n => draws (journal.draws + n)) alone dialect text
  simp only [retry, said]
  generalize (readCoarsely config (fun n => draws (journal.draws + n)) dialect text).outcome =
    second at ends ⊢
  generalize readCoarsely config alone dialect text = reading at kept ends ⊢
  obtain ⟨later, outcome⟩ := reading
  simp only at ends ⊢
  cases ends with
  | fault report =>
    refine ⟨?_, fun schema held => ?_⟩
    · exact failure_warnings dialect _ (coarseMessage_ne_empty (kept.fault report rfl).2)
    · simp at held
  | @value schema found level =>
    simp only
    split
    next report reported =>
      have message : report.message ≠ "" := by
        split at reported
        next => exact emptyFault?_speaks speaks reported
        next => cases reported
      refine ⟨failure_warnings dialect _ message, fun schema held => ?_⟩
      simp at held
    next =>
      refine ⟨rfl, fun brought held => ?_⟩
      cases held
      exact ⟨rfl, found, rfl, level⟩

end Extraction

/-- The same text, first without and then with a second reading. A success stays as it is, and so
does a failure over an unknown table. Any other failure stays as it is unless the structural reader
has failed; then the coarse reader follows, with one warning in front of its own, and brings what it
makes of the text alone, up to how far tables are shifted to the side. -/
theorem second_reading_replaces_failures_only (config : Config R) [Coordinate R] (draws : Nat → R)
    (text : Option (List Char)) (name : Option String) :
    let once := extract (config.retrying false) draws text name
    let retried := extract (config.retrying true) draws text name
    let structural := Extraction.structuralEnd? config draws text name
    let unresolved := ∃ dialect fault,
      structural = some (dialect, .error fault) ∧ fault.isUnresolvedReference = true
    (once.result.isSuccess = true → retried = once ∧ once.result.tier = some .structural) ∧
    (unresolved → retried = once ∧ once.result.isSuccess = false) ∧
    (once.result.isSuccess = false → ¬ unresolved →
      (structural = none ∧ retried = once) ∨
      ∃ dialect fault, structural = some (dialect, .error fault) ∧ ∀ alone,
        retried.result.warnings =
          once.result.warnings ++ [.handover dialect.displayName fault.describe] ++
            (Extraction.readCoarsely config alone dialect (text.getD [])).journal.warnings ∧
        ∀ schema, retried.result.schema? = some schema →
          retried.result.tier = some .fallback ∧ ∃ found,
            (Extraction.readCoarsely config alone dialect (text.getD [])).outcome = .ok found ∧
              schema.alignLeft = found.alignLeft) := by
  have retries := Extraction.extract_retries config draws text name
  generalize Extraction.structuralEnd? config draws text name = structural at retries ⊢
  generalize extract (config.retrying false) draws text name = once at retries ⊢
  generalize extract (config.retrying true) draws text name = retried at retries ⊢
  dsimp only
  cases retries with
  | unread dialect journal message =>
    refine ⟨fun succeeded => ?_, ?_, fun _ _ => .inl ⟨rfl, rfl⟩⟩
    · simp at succeeded
    · rintro ⟨_, _, ended, _⟩
      cases ended
  | read dialect journal schema =>
    refine ⟨fun _ => ⟨rfl, rfl⟩, ?_, fun failed => ?_⟩
    · rintro ⟨_, _, ended, _⟩
      cases ended
    · cases failed
  | unresolved dialect journal fault foreign =>
    refine ⟨fun succeeded => ?_, fun _ => ⟨rfl, ?_⟩, fun _ other => ?_⟩
    · simp at succeeded
    · exact Extraction.failure_isSuccess dialect journal _
    · exact absurd ⟨dialect, fault, rfl, foreign⟩ other
  | reread dialect journal fault other speaks =>
    refine ⟨fun succeeded => ?_, ?_, fun _ _ => .inr ⟨dialect, fault, rfl, fun alone => ?_⟩⟩
    · simp at succeeded
    · rintro ⟨_, _, ended, foreign⟩
      cases ended
      rw [other] at foreign
      cases foreign
    · rw [Extraction.failure_warnings dialect journal fault.describe_ne_empty]
      exact Extraction.retry_reads dialect (text.getD []) journal speaks alone

end SchemaAtlas
