import Mathlib.Data.List.DropRight
import SchemaAtlas.Proofs.Extraction.Results

/-!
A dialect that is detected and one that is named: the same text is read in the same way, with one
more message in front.
-/

set_option autoImplicit false

namespace SchemaAtlas

namespace Text

theorem trim_eq_nil_iff {cs : List Char} : trim cs = [] ↔ ∀ c ∈ cs, isBlank c = true := by
  calc trim cs = []
    _ ↔ ∀ c ∈ trimLeft cs, isBlank c = true := List.rdropWhile_eq_nil_iff
    _ ↔ trimLeft (trimLeft cs) = [] := List.dropWhile_eq_nil_iff.symm
    _ ↔ trimLeft cs = [] := by rw [trimLeft, trimLeft, List.dropWhile_idempotent]
    _ ↔ ∀ c ∈ cs, isBlank c = true := List.dropWhile_eq_nil_iff

end Text

/-- Nothing speaks for a dialect in a text without characters. -/
theorem Detect.detect_nil (drizzle : DrizzleKeywords) (prisma : PrismaKeywords) :
    detect drizzle prisma [] = .unknown := by
  have block (keywords : List String) : hasBlock keywords [] = false := rfl
  have calls (names : List String) : callsAny names [] = false := by
    have none : (if names.isEmpty then [""] else names).findSome? (fun name => do
        let cs ← Text.dropLiteral? name.toList []
        let _ ← Text.dropLiteral? ['('] (Text.trimLeft cs)) = Option.none := by
      refine List.findSome?_eq_none_iff.mpr fun name _ => ?_
      cases name.toList <;> rfl
    exact congrArg Option.isSome none
  simp only [detect, block, calls, Bool.or_self]
  rfl

namespace Extraction

open Text

variable {R : Type}

theorem clean?_ends (text : List Char) :
    (∃ fault, clean? (some text) = .error fault ∧ ∀ c ∈ stripComments text, isBlank c = true) ∨
      clean? (some text) = .ok (trim (stripComments text)) ∧
        ¬ ∀ c ∈ stripComments text, isBlank c = true := by
  unfold clean?
  simp only
  split
  next empty =>
    have blank := trim_eq_nil_iff.mp (List.isEmpty_iff.mp empty)
    exact .inl ⟨_, rfl, fun c member => blank c (stripFrom_subset _ text member)⟩
  next =>
    split
    next empty => exact .inl ⟨_, rfl, trim_eq_nil_iff.mp (List.isEmpty_iff.mp empty)⟩
    next held => exact .inr ⟨rfl, mt trim_eq_nil_iff.mpr (by simpa using held)⟩

theorem clean?_of_held {text : List Char} (held : trim (stripComments text) ≠ []) :
    clean? (some text) = .ok (trim (stripComments text)) := by
  obtain ⟨_, -, blank⟩ | ⟨clean, -⟩ := clean?_ends text
  · exact absurd (trim_eq_nil_iff.mpr blank) held
  · exact clean

/-- The text is there once its comments are gone if a dialect can be told from what is left. -/
theorem clean?_of_detected {config : Config R} {text : List Char}
    (found : Detect.detect config.drizzleKeywords config.prismaKeywords
      (trim (stripComments text)) ≠ .unknown) :
    clean? (some text) = .ok (trim (stripComments text)) := by
  refine clean?_of_held fun bare => ?_
  rw [bare] at found
  exact found (Detect.detect_nil _ _)

/-- The extraction with a journal in front of its own. -/
def behind (before : Journal) (extraction : Extraction R) : Extraction R where
  returned := extraction.returned.map fun result =>
    { result with warnings := before.warnings ++ result.warnings }
  notices := before.notices ++ extraction.notices
  draws := before.draws + extraction.draws

theorem success_behind (dialect : Dialect) (tier : Tier) (before journal : Journal)
    (schema : Schema R) :
    success dialect tier (before ++ journal) schema =
      (success dialect tier journal schema).behind before := rfl

theorem failure_behind (dialect : Dialect) (before journal : Journal) (message : String) :
    (failure dialect (before ++ journal) message : Extraction R) =
      (failure dialect journal message).behind before := by
  by_cases said : message = ""
  · simp [failure, behind, ExtractionResult.ofParts?, said, Except.map]
  · simp [failure, behind, ExtractionResult.ofParts?, said, Except.map]

variable [Coordinate R]

theorem retry_behind (config : Config R) (draws : Nat → R) (dialect : Dialect) (text : List Char)
    {before : Journal} (undrawn : before.draws = 0) (journal : Journal) (fault : Fault) :
    retry config draws dialect text (before ++ journal) fault =
      (retry config draws dialect text journal fault).behind before := by
  have same : (before ++ journal).draws = journal.draws := by
    rw [Journal.draws_append, undrawn, Nat.zero_add]
  -- The reader is the same on both sides: it starts from the same draw and looks at no message.
  simp only [retry, same, Journal.append_assoc]
  split
  next => exact failure_behind _ _ _ _
  next =>
    split
    next => exact failure_behind _ _ _ _
    next => exact success_behind _ _ _ _ _

theorem ofDialect_behind (config : Config R) (draws : Nat → R) (dialect : Dialect)
    (text cleaned : List Char) {before : Journal} (undrawn : before.draws = 0) :
    ofDialect config draws dialect text cleaned before =
      (ofDialect config draws dialect text cleaned {}).behind before := by
  simp only [ofDialect, Journal.empty_append]
  split
  next =>
    split
    next => exact success_behind _ _ _ _ _
    next =>
      split
      next => exact failure_behind _ _ _ _
      next => exact failure_behind _ _ _ _
      next => exact retry_behind _ _ _ _ undrawn _ _
  next =>
    have alone := failure_behind (R := R) dialect before {} (noDeclarations dialect)
    rwa [Journal.append_empty] at alone

/-- What is noted when a dialect is detected. -/
def detection (dialect : Dialect) : Journal where
  warnings :=
    [{ severity := .info, message := "Detected " ++ dialect.displayName ++ " schema" }]

theorem extract_named (config : Config R) (draws : Nat → R) {text cleaned : List Char}
    (clean : clean? (some text) = .ok cleaned) {label : String} {dialect : Dialect}
    (named : Dialect.ofName? (some label) = .ok dialect) (supported : dialect ≠ .unknown) :
    extract config draws (some text) (some label) =
      ofDialect config draws dialect text cleaned {} := by
  have found : dialectOf config (some label) cleaned = pure dialect := by
    rw [dialectOf, named]
    cases dialect with
    | unknown => exact absurd rfl supported
    | drizzle | prisma => rfl
  simp only [extract, clean, found]
  rfl

theorem extract_detected (config : Config R) (draws : Nat → R) {text cleaned : List Char}
    (clean : clean? (some text) = .ok cleaned) {name : Option String}
    (unnamed : Dialect.ofName? name = .ok .unknown) {dialect : Dialect}
    (detected : Detect.detect config.drizzleKeywords config.prismaKeywords cleaned = dialect)
    (supported : dialect ≠ .unknown) :
    extract config draws (some text) name =
      (ofDialect config draws dialect text cleaned {}).behind (detection dialect) := by
  have found : dialectOf config name cleaned =
      (do Journaled.record (detection dialect); return dialect) := by
    have first : Journaled.ofExcept ((Except.ok .unknown : Except Refusal Dialect).mapError
        Fault.refused) = pure .unknown := rfl
    rw [dialectOf, unnamed, first, pure_bind]
    simp only [detected]
    cases dialect with
    | unknown => exact absurd rfl supported
    | drizzle | prisma => rfl
  simp only [extract, clean, found]
  exact ofDialect_behind _ _ _ _ _ rfl

end Extraction

variable {R : Type} [Coordinate R]

/-- A text whose dialect is detected is read as if that dialect had been named, after a message that
says which it is. -/
theorem detected_as_if_named (config : Config R) (draws : Nat → R) (text : List Char)
    {name : Option String} (unnamed : Dialect.ofName? name = .ok .unknown) {label : String}
    {dialect : Dialect} (named : Dialect.ofName? (some label) = .ok dialect)
    (supported : dialect ≠ .unknown)
    (detected : Detect.detect config.drizzleKeywords config.prismaKeywords
      (Text.trim (Text.stripComments text)) = dialect) :
    ∃ found given,
      (extract config draws (some text) name).returned = .ok found ∧
      (extract config draws (some text) (some label)).returned = .ok given ∧
      found.outcome = given.outcome ∧ found.dialect = given.dialect ∧ found.tier = given.tier ∧
      found.warnings =
        { severity := .info, message := "Detected " ++ dialect.displayName ++ " schema" } ::
          given.warnings := by
  have clean := Extraction.clean?_of_detected (detected ▸ supported)
  have returned := extract_returned config draws (some text) (some label)
  let given := (extract config draws (some text) (some label)).result
  refine ⟨{ given with warnings := (Extraction.detection dialect).warnings ++ given.warnings }, given,
    ?_, returned, rfl, rfl, rfl, rfl⟩
  rw [Extraction.extract_detected config draws clean unnamed detected supported,
    ← Extraction.extract_named config draws clean named supported, Extraction.behind, returned]
  rfl

/-- A table that is not closed, so that it is read coarsely. -/
def unclosed : List Char := "export const a = pgTable('a', \x7b id: serial('id')".toList

theorem detected_as_if_named_unclosed : ∃ found given,
    (extract (Config.default : Config Int) (fun _ => 0) (some unclosed) (some " Unknown")).returned =
        .ok found ∧
      (extract (Config.default : Config Int) (fun _ => 0) (some unclosed)
        (some "drizzle")).returned = .ok given ∧
      given.tier = some .fallback ∧ found.outcome = given.outcome ∧
      found.warnings =
        { severity := .info, message := "Detected Drizzle schema" } :: given.warnings := by
  have detected : Detect.detect (Config.default : Config Int).drizzleKeywords
      (Config.default : Config Int).prismaKeywords (Text.trim (Text.stripComments unclosed)) =
        .drizzle := by
    decide +kernel
  have coarse : (extract (Config.default : Config Int) (fun _ => 0) (some unclosed)
      (some "drizzle")).result.tier = some .fallback := by
    decide +kernel
  obtain ⟨found, given, first, second, outcome, -, -, warnings⟩ :=
    detected_as_if_named (Config.default : Config Int) (fun _ => 0) unclosed
      (show Dialect.ofName? (some " Unknown") = .ok .unknown by rfl)
      (show Dialect.ofName? (some "drizzle") = .ok .drizzle by rfl) (by decide) detected
  have same := Except.ok.inj (second.symm.trans (extract_returned _ _ _ _))
  exact ⟨found, given, first, second, same ▸ coarse, outcome, warnings⟩

end SchemaAtlas
