import SchemaAtlas.Cli.Run
import SchemaAtlas.Proofs.Decimal.Range
import SchemaAtlas.Proofs.Decimal.Spelled
import SchemaAtlas.Proofs.Extraction.Columns

/-!
Runs that were asked for JSON. Whatever else there is to say goes to standard error or is left out,
so that standard output holds one document or nothing at all.
-/

set_option autoImplicit false

namespace SchemaAtlas

section Numbers

variable {R : Type} {x : R}

theorem Column.numbers_toJson (column : Column) : (column.toJson : Json R).numbers = [] := by
  unfold Column.toJson
  cases column.references <;> cases column.defaultValue <;> simp [ColumnReference.toJson]

theorem Table.mem_numbers_toJson {table : Table R} :
    x ∈ table.toJson.numbers ↔ x = table.position.x ∨ x = table.position.y := by
  simp [Table.toJson, Index.toJson, Position.toJson, Column.numbers_toJson]

theorem Schema.mem_numbers_toJson {schema : Schema R} : x ∈ schema.toJson.numbers ↔
    ∃ table ∈ schema.tables, x = table.position.x ∨ x = table.position.y := by
  simp [Schema.toJson, Relationship.toJson, Enumeration.toJson, Table.mem_numbers_toJson]

theorem ExtractionResult.mem_numbers_toJson {result : ExtractionResult R} :
    x ∈ result.toJson.numbers ↔ ∃ schema, result.schema? = some schema ∧ x ∈ schema.toJson.numbers := by
  have ofText (text : Option String) : (Json.ofText? text : Json R).numbers = [] := by
    cases text <;> rfl
  simp only [ExtractionResult.toJson, ExtractionResult.members]
  cases result.schema? <;> simp [ofText]

end Numbers

namespace Cli

section Streams

/-- What outputs leave on standard output. -/
def stdout (outputs : List Output) : List Char :=
  outputs.flatMap fun output =>
    match output with
    | .out text => text.toList ++ ['\n']
    | .err _ | .file .. => []

@[simp] theorem stdout_nil : stdout [] = [] := rfl

@[simp] theorem stdout_append (first second : List Output) :
    stdout (first ++ second) = stdout first ++ stdout second :=
  List.flatMap_append

@[simp] theorem stdout_out (text : String) (outputs : List Output) :
    stdout (.out text :: outputs) = text.toList ++ '\n' :: stdout outputs := by
  simp [stdout]

@[simp] theorem stdout_file (path content : String) (outputs : List Output) :
    stdout (.file path content :: outputs) = stdout outputs :=
  rfl

variable {console : Console}

@[simp] theorem stdout_error (console : Console) (text : String) :
    stdout (console.error text) = [] :=
  rfl

theorem stdout_unlessQuiet (quiet : console.quiet = true) (text : String) :
    stdout (console.unlessQuiet text) = [] := by
  simp [Console.unlessQuiet, quiet]

theorem stdout_warningOutputs (quiet : console.quiet = true) (warnings : Diagnostics) :
    stdout (warningOutputs console warnings) = [] := by
  unfold warningOutputs
  simp only [quiet, if_true]
  split
  next => rfl
  next =>
    rw [stdout_append, Console.warning, stdout_unlessQuiet quiet, List.nil_append, stdout,
      List.flatMap_eq_nil_iff]
    intro output member
    obtain ⟨n, _, rfl⟩ := List.mem_mapIdx.mp member
    rfl

theorem stdout_exportOutputs (quiet : console.quiet = true) (path : String)
    (result : ExtractionResult Float) : stdout (exportOutputs console path result) = [] := by
  simp [exportOutputs, Console.info, Console.success, stdout_unlessQuiet quiet]

theorem stdout_readSource_error {inputs : Inputs} {source : Source} {outputs : List Output}
    (failed : readSource console inputs source = .error outputs) : stdout outputs = [] := by
  cases source with
  | sample | stdin => cases failed
  | missing => cases failed; rfl
  | file path =>
    simp only [readSource] at failed
    split at failed
    next => cases failed
    next => cases failed; rfl

theorem stdout_readSource_ok (quiet : console.quiet = true) {inputs : Inputs} {source : Source}
    {opening : List Output} {text : String}
    (read : readSource console inputs source = .ok (opening, text)) : stdout opening = [] := by
  cases source with
  | sample => cases read; exact stdout_unlessQuiet quiet _
  | stdin => cases read; rfl
  | missing => cases read
  | file path =>
    simp only [readSource] at read
    split at read
    next => cases read; exact stdout_unlessQuiet quiet _
    next => cases read

end Streams

section Documents

variable {options : Options} {result : ExtractionResult Float} {number : Float → List Char → Prop}

/-- What a run that is asked for JSON shows of a result: the tables around a table, if they are
asked for and there are any, or the whole result. -/
def Options.answer? (options : Options) (result : ExtractionResult Float) : Option (Json Float) :=
  match result.outcome with
  | .failure .. => some result.toJson
  | .success schema =>
    match options.related.filter (· ≠ "") with
    | none => some result.toJson
    | some table => (Neighbours.ofGraph? (Graph.ofSchema schema) table).map Neighbours.toJson

/-- A text is a document, or it is empty where there is none. -/
def Shows (number : Float → List Char → Prop) : Option (Json Float) → List Char → Prop
  | none, cs => cs = []
  | some json, cs => Json.IsDocument number json cs

theorem shows_render (style : Json.Style) {json : Json Float}
    (writes : ∀ x ∈ json.numbers, number x (Decimal.shortest x).toList) :
    Shows number (some json) ((json.render style Decimal.shortest).toList ++ ['\n']) :=
  Json.isDocument_render style json writes (by simp [Json.IsGap])

theorem Neighbours.numbers_toJson (neighbours : Neighbours) :
    (neighbours.toJson : Json Float).numbers = [] := by
  simp [Neighbours.toJson]

theorem shows_showResult (console : Console) (json : options.format = .json)
    (quiet : console.quiet = true) {schema : Schema Float} (held : result.outcome = .success schema)
    (writes : ∀ x ∈ result.toJson.numbers, number x (Decimal.shortest x).toList) :
    Shows number (options.answer? result) (stdout (showResult console options result schema).2) ∧
      ((showResult console options result schema).1 = 0 → (options.answer? result).isSome) := by
  unfold showResult Options.answer?
  extract_lets exported
  -- The export goes to a file, and what is said about it is left out.
  have silent : stdout exported = [] := by
    unfold exported
    split
    next path _ => exact stdout_exportOutputs quiet path result
    next => rfl
  rw [held]
  cases options.related.filter (· ≠ "") with
  | none => simpa [json, showSchema, silent, document] using shows_render _ writes
  | some table =>
    simp only
    cases Neighbours.ofGraph? (Graph.ofSchema schema) table with
    | none => simp [Shows]
    | some neighbours =>
      have shows := @shows_render number { indent := some 2, asciiOnly := true } neighbours.toJson
        (by simp [Neighbours.numbers_toJson])
      simpa [json, showNeighbours, silent] using shows

variable {inputs : Inputs} {opening : List Output} {text : String}

theorem shows_runOptions (json : options.format = .json) (asciiOnly : Bool) (draws : Nat → Float)
    (read : readSource (options.console asciiOnly) inputs options.source = .ok (opening, text))
    (same : (extract options.config draws (some text.toList) options.dialect).result = result)
    (writes : ∀ x ∈ result.toJson.numbers, number x (Decimal.shortest x).toList) :
    Shows number (options.answer? result)
        (stdout (runOptions options asciiOnly draws inputs).outputs) ∧
      ((runOptions options asciiOnly draws inputs).exit = 0 → (options.answer? result).isSome) := by
  have quiet : (options.console asciiOnly).quiet = true := by simp [Options.console, json]
  have silent := stdout_readSource_ok quiet read
  simp only [runOptions, read, same]
  generalize spoken : (if options.noWarnings then [] else _ : List Output) = warnings
  have silent' : stdout warnings = [] := by
    rw [← spoken]
    split
    next => rfl
    next => exact stdout_warningOutputs quiet _
  split
  next error said failed =>
    have shows := shows_render { indent := some 2 } writes
    simpa [Options.answer?, failed, json, silent, silent', Console.info, stdout_unlessQuiet quiet,
      document] using shows
  next schema held =>
    have shown := shows_showResult (options.console asciiOnly) json quiet held writes
    simpa [silent, silent', Console.info, Console.success, stdout_unlessQuiet quiet] using shown

theorem exit_of_failed (asciiOnly : Bool) (draws : Nat → Float)
    (read : readSource (options.console asciiOnly) inputs options.source = .ok (opening, text))
    (same : (extract options.config draws (some text.toList) options.dialect).result = result)
    (failed : result.isSuccess = false) :
    (runOptions options asciiOnly draws inputs).exit = 1 ∧
      options.answer? result = some result.toJson := by
  cases held : result.outcome with
  | success schema => simp [ExtractionResult.isSuccess, held] at failed
  | failure error said => simp [runOptions, Options.answer?, read, same, held]

theorem exit_of_unrelated (asciiOnly : Bool) (draws : Nat → Float)
    (read : readSource (options.console asciiOnly) inputs options.source = .ok (opening, text))
    (same : (extract options.config draws (some text.toList) options.dialect).result = result)
    (found : result.isSuccess = true) (unrelated : options.related = none) :
    (runOptions options asciiOnly draws inputs).exit = 0 ∧
      options.answer? result = some result.toJson := by
  cases held : result.outcome with
  | failure error said => simp [ExtractionResult.isSuccess, held] at found
  | success schema =>
    simp [runOptions, showResult, Options.answer?, read, same, held, unrelated]

end Documents

/-- Only a stream for ASCII may refuse what a run writes. -/
theorem run_of_accepted {arguments : List String} {options : Options}
    (accepted : Request.ofArguments? arguments = .ok (.run options)) (asciiOnly : Bool)
    (draws : Nat → Float) (inputs : Inputs) :
    run arguments asciiOnly draws inputs = .ok (runOptions options asciiOnly draws inputs) ∨
      asciiOnly = true ∧ ∃ unprintable, run arguments asciiOnly draws inputs = .error unprintable := by
  unfold run
  rw [accepted]
  simp only
  split
  next unprintable refused =>
    refine .inr ⟨?_, unprintable, rfl⟩
    by_contra wide
    simp [wide] at refused
  next => exact .inl rfl

theorem numbers_isFinite {config : Config Float} (plain : config.layout = Layout.default)
    {draws : Nat → Float} (unit : ∀ n, 0 ≤ draws n ∧ draws n < 1) (text : List Char)
    (dialect : Option String) {result : ExtractionResult Float}
    (same : (extract config draws (some text) dialect).result = result)
    (few : ∀ schema, result.schema? = some schema → schema.tables.length < 2 ^ 256) :
    ∀ x ∈ result.toJson.numbers, x.isFinite = true := by
  intro x member
  obtain ⟨schema, held, member⟩ := ExtractionResult.mem_numbers_toJson.mp member
  obtain ⟨table, member, coordinate⟩ := Schema.mem_numbers_toJson.mp member
  obtain ⟨tier, -, laid⟩ :=
    (Extraction.extract_ends config draws (some text) dialect).laid (same ▸ held)
  obtain ⟨n, -, taken, bounded, placed⟩ := laid.placed member
  rw [placed, plain] at coordinate
  have finite := Decimal.position_isFinite (unit n) (bounded.trans_lt (few schema held))
  rcases coordinate with rfl | rfl
  · exact finite.1
  · exact finite.2

/-- A run that is asked for JSON leaves one document on standard output, or nothing if it fails
without one. Only a stream that takes no more than ASCII may refuse the document. -/
theorem json_run_shows_document {arguments : List String} {options : Options}
    (accepted : Request.ofArguments? arguments = .ok (.run options)) (json : options.format = .json)
    (asciiOnly : Bool) (draws : Nat → Float) (inputs : Inputs) :
    (asciiOnly = true ∧ ∃ unprintable, run arguments asciiOnly draws inputs = .error unprintable) ∨
    ∃ transcript document?, run arguments asciiOnly draws inputs = .ok transcript ∧
      Shows Decimal.Spells document? (stdout transcript.outputs) ∧
      (transcript.exit = 0 → document?.isSome) ∧
      ∀ opening text result,
        readSource (options.console asciiOnly) inputs options.source = .ok (opening, text) →
        (extract options.config draws (some text.toList) options.dialect).returned = .ok result →
        (result.isSuccess = false → transcript.exit = 1 ∧ document? = some result.toJson) ∧
        (result.isSuccess = true → options.related = none →
          transcript.exit = 0 ∧ document? = some result.toJson) ∧
        ((∀ n, 0 ≤ draws n ∧ draws n < 1) →
          (∀ schema, result.schema? = some schema → schema.tables.length < 2 ^ 256) →
          Shows (fun _ => Json.IsNumeral) document? (stdout transcript.outputs)) := by
  obtain returned | refused := run_of_accepted accepted asciiOnly draws inputs
  case inr => exact .inl refused
  refine .inr ?_
  cases read : readSource (options.console asciiOnly) inputs options.source with
  | error outputs =>
    -- Without a text there is nothing to show.
    have ended : runOptions options asciiOnly draws inputs = { exit := 1, outputs } := by
      simp [runOptions, read]
    exact ⟨{ exit := 1, outputs }, none, ended ▸ returned, stdout_readSource_error read, nofun,
      fun _ _ _ found => nomatch found⟩
  | ok found =>
    obtain ⟨opening, text⟩ := found
    obtain ⟨shows, shown⟩ := shows_runOptions json asciiOnly draws read rfl
      fun x _ => Decimal.spells_shortest x
    refine ⟨_, _, returned, shows, shown, fun opening' text' result read' found => ?_⟩
    cases read'
    cases (extract_returned _ _ _ _).symm.trans found
    refine ⟨exit_of_failed asciiOnly draws read rfl, exit_of_unrelated asciiOnly draws read rfl,
      fun unit few => ?_⟩
    refine (shows_runOptions json asciiOnly draws read rfl fun x member => ?_).1
    -- The same document once more, now that all of its numbers are known to be finite.
    have finite := numbers_isFinite rfl unit text.toList options.dialect rfl few x member
    simpa [Decimal.Spells, finite] using Decimal.spells_shortest x

def person : String := "model Person \x7b\n  id Int @id\n\x7d"

theorem json_run_shows_document_person : ∃ transcript, ∃ json : Json Float,
    run ["-", "--format", "json", "--strict"] false (fun _ => 0) { stdin := person } =
        .ok transcript ∧
      transcript.exit = 0 ∧
      Json.IsDocument (fun _ => Json.IsNumeral) json (stdout transcript.outputs) := by
  let options : Options := { file := some "-", format := .json, strict := true }
  have accepted : Request.ofArguments? ["-", "--format", "json", "--strict"] = .ok (.run options) := by
    decide +kernel
  have ended : (run ["-", "--format", "json", "--strict"] false (fun _ => 0)
      { stdin := person }).toOption.map (·.exit) = some 0 := by
    decide +kernel
  have counted : (extract options.config (fun _ => 0) (some person.toList)
      none).result.schema?.map (·.tables.length) = some 1 := by
    decide +kernel
  have unit : (0 : Float) ≤ 0 ∧ (0 : Float) < 1 := by decide +kernel
  obtain ⟨refused, -⟩ | ⟨transcript, document?, returned, -, shown, answered⟩ :=
    json_run_shows_document accepted rfl false (fun _ => 0) { stdin := person }
  case inl => cases refused
  rw [returned] at ended
  obtain ⟨json, rfl⟩ := Option.isSome_iff_exists.mp (shown (Option.some.inj ended))
  have few (schema : Schema Float) (held : (extract options.config (fun _ => 0) (some person.toList)
      none).result.schema? = some schema) : schema.tables.length < 2 ^ 256 := by
    rw [held] at counted
    have one : schema.tables.length = 1 := Option.some.inj counted
    simp [one]
  exact ⟨transcript, json, returned, Option.some.inj ended,
    (answered [] person _ rfl (extract_returned _ _ _ _)).2.2 (fun _ => unit) few⟩

end Cli

end SchemaAtlas
