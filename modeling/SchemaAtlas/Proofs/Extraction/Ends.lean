import SchemaAtlas.Proofs.Extraction.Readers

/-!
The ways in which an extraction can end: with a message that is not empty, or with a schema of one
of the readers. Every statement about results goes through them.
-/

set_option autoImplicit false

namespace SchemaAtlas.Extraction

variable {R : Type}

theorem noDeclarations_ne_empty (dialect : Dialect) : noDeclarations dialect ≠ "" := by
  cases dialect <;> decide +kernel

theorem clean?_fails (text : Option (List Char)) : FailsOnly (·.message ≠ "") (clean? text) := by
  unfold clean?
  split
  next => exact .error (by simp [Fault.message])
  next =>
    split
    next => exact .error (by simp [Fault.message])
    next =>
      simp only
      split
      next => exact .error (by simp [Fault.message])
      next => exact .ok _

theorem ofName?_error {name : Option String} {refusal : Refusal}
    (failed : Dialect.ofName? name = .error refusal) : refusal.message ≠ "" := by
  unfold Dialect.ofName? at failed
  split at failed
  next => cases failed
  next value =>
    simp only at failed
    split at failed
    next => cases failed
    next =>
      cases failed
      show "Unknown dialect: '" ++ value ++ "'. Must be one of " ++ _ ≠ ""
      simp

theorem dialectOf_keeps (config : Config R) (name : Option String) (cleaned : List Char) :
    (dialectOf config name cleaned).Keeps (·.reportsDrop = false) (·.message ≠ "")
      fun _ => True := by
  unfold dialectOf
  refine .bind (.ofExcept ?_ fun _ _ => trivial) fun named _ => ?_
  · intro fault failed
    obtain ⟨refusal, unknown, rfl⟩ := mapError_eq_error.mp failed
    exact ofName?_error unknown
  · split
    next =>
      split
      next => exact .fail (by simp [Fault.message])
      next found _ =>
        refine .bind (.warn ?_) fun _ _ => .pure trivial
        simp [Warning.reportsDrop, Text.beginsWith, Text.dropLiteral?]
    next => exact .pure trivial

theorem handover_reportsDrop (dialect : Dialect) (reason : String) :
    (Warning.handover dialect.displayName reason).reportsDrop = false := by
  cases dialect <;>
    simp [Warning.handover, Dialect.displayName, Warning.reportsDrop, Text.beginsWith,
      Text.dropLiteral?]

theorem coarseMessage_ne_empty {fault : Fault} (speaks : fault.Speaks) :
    coarseMessage fault ≠ "" := by
  unfold coarseMessage
  split
  next own => exact speaks own
  next => simp

theorem emptyFault?_speaks {config : Config R} {dialect : Dialect} {fault report : Fault}
    (speaks : fault.Speaks) (reported : emptyFault? config dialect fault = some report) :
    report.message ≠ "" := by
  unfold emptyFault? at reported
  split at reported
  next => cases reported; exact speaks rfl
  next =>
    split at reported
    next => cases reported; simp [Fault.message]
    next => cases reported

variable [Coordinate R]

inductive Ends (config : Config R) (draws : Nat → R) (text : List Char) : Extraction R → Prop
  | failed (dialect : Dialect) (journal : Journal) (message : String) (said : message ≠ "") :
    Ends config draws text (failure dialect journal message)
  | read (dialect : Dialect) (before : Journal) (schema : Schema R)
    (found : (readStructurally config draws dialect text).outcome = .ok schema)
    (allowed : ∀ warning ∈ (before ++ (readStructurally config draws dialect text).journal).warnings,
      warning.Allowed config.onUnresolved) :
    Ends config draws text (success dialect .structural
      (before ++ (readStructurally config draws dialect text).journal) schema)
  | reread (dialect : Dialect) (before : Journal) (drawn : Nat) (counted : before.draws = drawn)
    (schema : Schema R)
    (found : (readCoarsely config (fun n => draws (drawn + n)) dialect text).outcome = .ok schema)
    (allowed : ∀ warning ∈
      (before ++ (readCoarsely config (fun n => draws (drawn + n)) dialect text).journal).warnings,
      warning.Allowed config.onUnresolved) :
    Ends config draws text (success dialect .fallback
      (before ++ (readCoarsely config (fun n => draws (drawn + n)) dialect text).journal) schema)

theorem retry_ends (config : Config R) (draws : Nat → R) (dialect : Dialect) (text : List Char)
    {journal : Journal} {fault : Fault} (speaks : fault.Speaks)
    (allowed : ∀ warning ∈ journal.warnings, warning.Allowed config.onUnresolved) :
    Ends config draws text (retry config draws dialect text journal fault) := by
  have kept := readCoarsely_keeps config (fun n => draws (journal.draws + n)) dialect text
  unfold retry
  simp only
  split
  next report failed => exact .failed _ _ _ (coarseMessage_ne_empty (kept.fault report failed).2)
  next schema found =>
    split
    next report reported =>
      refine .failed _ _ _ ?_
      split at reported
      next => exact emptyFault?_speaks speaks reported
      next => cases reported
    next =>
      -- The handover draws nothing, so the second reading goes on where the first one stopped.
      refine .reread dialect (journal ++ { warnings := [.handover dialect.displayName _] })
        journal.draws rfl schema found fun warning member => ?_
      simp only [Journal.warnings_append, List.mem_append, List.mem_singleton] at member
      rcases member with (early | rfl) | late
      · exact allowed warning early
      · exact Warning.allowed_of_plain (handover_reportsDrop _ _)
      · exact kept.warnings warning late

theorem ofDialect_ends (config : Config R) (draws : Nat → R) (dialect : Dialect)
    (text cleaned : List Char) {before : Journal}
    (plain : ∀ warning ∈ before.warnings, warning.reportsDrop = false) :
    Ends config draws text (ofDialect config draws dialect text cleaned before) := by
  have kept := readStructurally_keeps config draws dialect text
  have allowed :
      ∀ warning ∈ (before ++ (readStructurally config draws dialect text).journal).warnings,
        warning.Allowed config.onUnresolved := by
    intro warning member
    rcases List.mem_append.mp member with early | late
    · exact Warning.allowed_of_plain (plain warning early)
    · exact kept.warnings warning late
  unfold ofDialect
  split
  next =>
    simp only
    split
    next schema found => exact .read dialect before schema found allowed
    next fault failed =>
      have speaks := kept.fault fault failed
      -- An unknown table, no second reading allowed, or a second reading.
      split
      next => exact .failed _ _ _ (speaks rfl)
      next => exact .failed _ _ _ (Fault.describe_ne_empty _)
      next => exact retry_ends _ _ _ _ speaks allowed
  next => exact .failed _ _ _ (noDeclarations_ne_empty dialect)

theorem extract_ends (config : Config R) (draws : Nat → R) (text : Option (List Char))
    (dialect : Option String) :
    Ends config draws (text.getD []) (extract config draws text dialect) := by
  unfold extract
  split
  next fault failed => exact .failed _ _ _ (clean?_fails text fault failed)
  next cleaned _ =>
    have kept := dialectOf_keeps config dialect cleaned
    simp only
    split
    next fault failed => exact .failed _ _ _ (kept.fault fault failed)
    next found _ => exact ofDialect_ends _ _ _ _ _ kept.warnings

end SchemaAtlas.Extraction
