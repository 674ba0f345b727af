import SchemaAtlas.Proofs.Blocks.Refusals
import SchemaAtlas.Proofs.Extraction.Modes
import SchemaAtlas.Proofs.Fluent.Refusals

/-!
The faults with which the structural readers end under the default settings.
-/

set_option autoImplicit false

namespace SchemaAtlas

variable {R : Type} [Coordinate R]

/-- Under the default settings a structural reading makes a schema or ends with a fault that it
announces, unless the text declares a blank column: then making that column is refused. -/
theorem readings_end_as_announced_iff (mode : ErrorMode) (draws : Nat → R) (text : List Char) :
    let config := (Config.default : Config R).inMode mode
    (FailsOnly (Fluent.announces · = true) (Fluent.readSchema config draws text).outcome ↔
      ¬ Fluent.HasBlankColumn text) ∧
    (FailsOnly (Blocks.announces · = true) (Blocks.readSchema config draws text).outcome ↔
      ¬ Blocks.HasBlankColumn text) ∧
    (Fluent.HasBlankColumn text → ∃ refusal, refusal.isOfColumn = true ∧
      (Fluent.readSchema config draws text).outcome = .error (.refused refusal)) ∧
    (Blocks.HasBlankColumn text → ∃ refusal, refusal.isOfColumn = true ∧
      (Blocks.readSchema config draws text).outcome = .error (.refused refusal)) := by
  intro config
  have script : EndsUnless (Fluent.HasBlankColumn text) Fluent.announces
      (Fluent.readSchema config draws text).outcome := Fluent.readSchema_ends rfl rfl draws text
  have blocks : EndsUnless (Blocks.HasBlankColumn text) Blocks.announces
      (Blocks.readSchema config draws text).outcome := Blocks.readSchema_ends rfl rfl draws text
  exact ⟨script.failsOnly_iff fun _ => rfl, blocks.failsOnly_iff fun _ => rfl, script.refused,
    blocks.refused⟩

def untypedField : List Char := "model A \x7b\n x ?\n id Int @id\n\x7d".toList

def unnamedKey : List Char :=
  "export const a = pgTable('a', \x7b '': integer('x'), id: serial('id') \x7d);".toList

theorem blank_columns_escape :
    (Blocks.readSchema (Config.default : Config Int) (fun _ => 0) untypedField).outcome =
        .error (.refused (.emptyColumnType "x")) ∧
      (Fluent.readSchema (Config.default : Config Int) (fun _ => 0) unnamedKey).outcome =
        .error (.refused .emptyColumnName) ∧
      Blocks.announces (.refused (.emptyColumnType "x")) = false ∧
      Fluent.announces (.refused .emptyColumnName) = false := by
  refine ⟨?_, ?_, rfl, rfl⟩ <;> decide +kernel

end SchemaAtlas
