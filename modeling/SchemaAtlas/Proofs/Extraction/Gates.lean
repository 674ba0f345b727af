import SchemaAtlas.Proofs.Blocks.Keywords
import SchemaAtlas.Proofs.Blocks.Modes
import SchemaAtlas.Proofs.Extraction.Detected
import SchemaAtlas.Proofs.Extraction.Handover

/-!
The two gates in front of a schema written in blocks. An extraction asks for a declaration keyword
before it reads a text, and the structural reader asks once more: both get the same answer.
-/

set_option autoImplicit false

namespace SchemaAtlas

/-- The fault leaves open whether there are declarations: neither its kind nor its text is that of
a text without any. -/
structure Fault.Affirms (fault : Fault) : Prop where
  kind : ∀ reason dialect, fault ≠ .dialectMismatch reason dialect
  said : fault.describe ≠ Blocks.noDeclarations

theorem ne_noDeclarations {text : String}
    (begins : ∃ c rest, text.toList = c :: rest ∧ c ≠ 'N') : text ≠ Blocks.noDeclarations := by
  rintro rfl
  obtain ⟨rest, whole⟩ : ∃ rest, Blocks.noDeclarations.toList = 'N' :: rest :=
    ⟨_, String.toList_ofList⟩
  obtain ⟨c, _, same, other⟩ := begins
  exact other (List.cons.inj (same.symm.trans whole)).1

theorem Refusal.message_ne_noDeclarations (refusal : Refusal) :
    refusal.message ≠ Blocks.noDeclarations := by
  unfold message
  -- A fixed message is compared as a whole, the others differ at the front.
  split <;> first | (simp [Blocks.noDeclarations]; done) | exact ne_noDeclarations (by simp)

namespace Fault

variable {fault : Fault}

theorem Affirms.message_ne_noDeclarations (affirms : fault.Affirms) :
    fault.message ≠ Blocks.noDeclarations := by
  intro same
  have said : fault.message ≠ "" := by
    rw [same]
    decide
  exact affirms.said (by rw [describe, if_neg said, same])

theorem Affirms.of_message (kind : ∀ reason dialect, fault ≠ .dialectMismatch reason dialect)
    (said : fault.message ≠ "") (other : fault.message ≠ Blocks.noDeclarations) :
    fault.Affirms where
  kind := kind
  said := by rwa [describe, if_neg said]

theorem affirms_refused (refusal : Refusal) : (refused refusal).Affirms := by
  refine .of_message (by simp) ?_ refusal.message_ne_noDeclarations
  change refusal.message ≠ ""
  unfold Refusal.message
  split <;> simp

theorem Affirms.inFallback (affirms : fault.Affirms) :
    (fault.inFallback Dialect.prisma.displayName).message ≠ Blocks.noDeclarations := by
  unfold Fault.inFallback
  split
  next => exact affirms.message_ne_noDeclarations
  next =>
    change "Prisma" ++ " fallback parsing failed: " ++ fault.message ≠ _
    exact ne_noDeclarations (by simp)

end Fault

namespace Blocks

variable {types : TypeProvider} {fault : Fault}

theorem Stops.affirms (stops : Stops fault) : fault.Affirms := by
  obtain ⟨reason, place, ⟨rest, said⟩, rfl⟩ := stops
  -- A place stands behind the reason, so that the message begins with the reason either way.
  have begins : ∃ more, (Fault.structural reason place).message.toList = 'U' :: more := by
    simp only [Fault.message, Place.locate]
    split <;> simp [← said]
  obtain ⟨more, begins⟩ := begins
  refine .of_message (by simp) (fun empty => ?_) (ne_noDeclarations ⟨'U', more, begins, by decide⟩)
  simp [empty] at begins

section Honest

variable (honest : ∀ name fault, types.resolve name = .error fault → fault.Affirms)

include honest

theorem ColumnFails.affirms (fails : ColumnFails types fault) : fault.Affirms := by
  cases fails with
  | typed failed => exact honest _ fault failed
  | refused refusal => exact Fault.affirms_refused refusal

theorem Fails.affirms {keywords : PrismaKeywords} {cleaned : List Char}
    (fails : Fails keywords types cleaned fault) (declares : looksLike keywords cleaned = true) :
    fault.Affirms := by
  cases fails with
  | denied other =>
    rw [declares] at other
    cases other
  | unbalanced => exact ⟨by simp, by decide⟩
  | stopped stops => exact stops.affirms
  | empty => exact ⟨by simp, by decide⟩
  | column fails => exact fails.affirms honest

end Honest

theorem readSchema_denied {R : Type} [Coordinate R] (config : Config R) (draws : Nat → R)
    {text : List Char} (other : looksLike config.prismaKeywords (Text.stripComments text) = false) :
    (readSchema config draws text).outcome =
      .error (.dialectMismatch noDeclarations (some Dialect.prisma.label)) := by
  simp only [readSchema, other]
  rfl

end Blocks

namespace Extraction

open Text

variable {R : Type}

theorem failure_error? (dialect : Dialect) (journal : Journal) (message : String) :
    (failure dialect journal message : Extraction R).result.error? = some Blocks.noDeclarations ↔
      message = Blocks.noDeclarations := by
  by_cases said : message = ""
  · subst said
    exact iff_of_false (fun same => absurd (Option.some.inj same) (by decide)) (by decide)
  · rw [result, failure_returned dialect journal said]
    exact Option.some_inj

theorem emptyFault?_ne_noDeclarations {config : Config R} {fault report : Fault}
    (affirms : fault.Affirms) (reported : emptyFault? config .prisma fault = some report) :
    report.message ≠ Blocks.noDeclarations := by
  unfold emptyFault? at reported
  split at reported
  next =>
    cases reported
    exact affirms.message_ne_noDeclarations
  next =>
    split at reported
    next =>
      cases reported
      decide
    next => cases reported

section Honest

variable [Coordinate R] {config : Config R} (draws : Nat → R)
  (honest : ∀ name fault, config.prismaTypes.resolve name = .error fault → fault.Affirms)

include honest

theorem retry_error? (text : List Char) (journal : Journal) {fault : Fault}
    (affirms : fault.Affirms) :
    (retry config draws .prisma text journal fault).result.error? ≠ some Blocks.noDeclarations := by
  have kept := Blocks.Scan.readSchema_keeps config (fun n => draws (journal.draws + n)) text
  unfold retry
  simp only [readCoarsely]
  split
  next report failed =>
    obtain ⟨cause, fails, rfl⟩ := kept.fault report failed
    rw [Ne, failure_error?, coarseMessage, if_pos (Fault.isExtractionFault_inFallback _ _)]
    exact (fails.affirms honest).inFallback
  next =>
    split
    next report reported =>
      rw [Ne, failure_error?]
      split at reported
      next => exact emptyFault?_ne_noDeclarations affirms reported
      next => cases reported
    next => exact (Option.some_ne_none _).symm

theorem ofDialect_error? {text cleaned : List Char} (journal : Journal)
    (same : Blocks.looksLike config.prismaKeywords cleaned =
      Blocks.looksLike config.prismaKeywords (stripComments text)) :
    (ofDialect config draws .prisma text cleaned journal).result.error? =
        some Blocks.noDeclarations ↔
      Blocks.looksLike config.prismaKeywords (stripComments text) = false := by
  have fails := (Blocks.readSchema_fails config draws text).fault
  unfold ofDialect
  simp only [Detect.looksLike, readStructurally, same]
  split
  next declares =>
    simp only [declares, Bool.true_eq_false, iff_false]
    split
    next => exact (Option.some_ne_none _).symm
    next fault failed =>
      have affirms := (fails fault failed).affirms honest declares
      split
      next => exact (failure_error? _ _ _).not.mpr affirms.message_ne_noDeclarations
      next => exact (failure_error? _ _ _).not.mpr affirms.said
      next => exact retry_error? draws honest text _ affirms
  next other =>
    simp only [Bool.not_eq_true] at other
    simp only [other, iff_true]
    exact (failure_error? _ _ _).mpr rfl

theorem structuralEnd?_affirms
    (models : IsWordText config.prismaKeywords.modelKeyword.toList)
    (enums : IsWordText config.prismaKeywords.enumKeyword.toList) {text : List Char}
    {name : Option String} {fault : Fault}
    (ended : structuralEnd? config draws (some text) name = some (.prisma, .error fault)) :
    fault.Affirms := by
  unfold structuralEnd? at ended
  obtain ⟨_, failed, -⟩ | ⟨clean, -⟩ := clean?_ends text
  · simp only [failed] at ended
    cases ended
  · simp only [clean] at ended
    split at ended
    next => cases ended
    next dialect _ =>
      split at ended
      next declares =>
        obtain ⟨rfl, failed⟩ := Prod.mk.inj (Option.some.inj ended)
        rw [Detect.looksLike, Blocks.looksLike_trim models enums] at declares
        have fails := (Blocks.readSchema_fails config draws text).fault fault failed
        exact fails.affirms honest declares
      next => cases ended

end Honest

end Extraction

variable {R : Type} [Coordinate R]

/-- The text that an extraction cleans passes the one gate exactly if the text as it was handed in
passes the other. So what is said of a text without declarations is said exactly where the
structural reader finds none, and this reader never gets to say so itself. -/
theorem gates_agree (config : Config R) (draws : Nat → R) (text : List Char)
    (models : Text.IsWordText config.prismaKeywords.modelKeyword.toList)
    (enums : Text.IsWordText config.prismaKeywords.enumKeyword.toList)
    (honest : ∀ name fault, config.prismaTypes.resolve name = .error fault → fault.Affirms) :
    let mismatch := ∃ reason dialect,
      (Blocks.readSchema config draws text).outcome = .error (.dialectMismatch reason dialect)
    (Detect.looksLike config.drizzleKeywords config.prismaKeywords
      (Text.trim (Text.stripComments text)) .prisma = true ↔ ¬ mismatch) ∧
    (Text.trim (Text.stripComments text) ≠ [] → ∀ name, Dialect.ofName? name = .ok .prisma →
      ((extract config draws (some text) name).result.error? = some Blocks.noDeclarations ↔
        mismatch)) ∧
    ∀ name reason other, Extraction.structuralEnd? config draws (some text) name ≠
      some (.prisma, .error (.dialectMismatch reason other)) := by
  have same := Blocks.looksLike_trim models enums (Text.stripComments text)
  have mismatched : (∃ reason dialect, (Blocks.readSchema config draws text).outcome =
      .error (.dialectMismatch reason dialect)) ↔
        Blocks.looksLike config.prismaKeywords (Text.stripComments text) = false := by
    constructor
    · rintro ⟨reason, dialect, failed⟩
      by_contra declares
      have fails := (Blocks.readSchema_fails config draws text).fault _ failed
      exact (fails.affirms honest (by simpa using declares)).kind reason dialect rfl
    · exact fun other => ⟨_, _, Blocks.readSchema_denied config draws other⟩
  refine ⟨?_, fun held name named => ?_, fun name reason other ended => ?_⟩
  · rw [mismatched, Detect.looksLike, same, Bool.not_eq_false]
  · obtain _ | label := name
    next => cases named
    next =>
      have clean := Extraction.clean?_of_held held
      rw [mismatched, Extraction.extract_named config draws clean named (by decide)]
      exact Extraction.ofDialect_error? draws honest {} same
  · have affirms := Extraction.structuralEnd?_affirms draws honest models enums ended
    exact affirms.kind reason other rfl

/-- A model that only a comment names. -/
def remarked : List Char := "model // User\n".toList

theorem gates_agree_remarked :
    ¬ Detect.looksLike {} {} (Text.trim (Text.stripComments remarked)) .prisma = true ∧
      (extract (Config.default : Config Int) (fun _ => 0) (some remarked)
        (some " Prisma")).result.error? = some Blocks.noDeclarations := by
  obtain ⟨gate, answer, -⟩ := gates_agree (Config.default : Config Int) (fun _ => 0) remarked
    (by decide) (by decide) (fun _ _ failed => by cases failed)
  have closed : ¬ Detect.looksLike {} {} (Text.trim (Text.stripComments remarked)) .prisma = true :=
    by decide +kernel
  have mismatch := not_not.mp (mt gate.mpr closed)
  exact ⟨closed, (answer (by decide +kernel) (some " Prisma") rfl).mpr mismatch⟩

end SchemaAtlas
