import SchemaAtlas.Dialect
import SchemaAtlas.Proofs.Journaled
import SchemaAtlas.Text.Pattern

/-!
What is said to the caller: faults that have a message, and warnings that report a dropped
relationship.
-/

set_option autoImplicit false

namespace SchemaAtlas

theorem joinWith_cons_ne_empty (separator text : String) (texts : List String) (said : text ≠ "") :
    joinWith separator (text :: texts) ≠ "" := by
  cases texts <;> simp [joinWith, said]

theorem Place.locate_ne_empty (place : Place) (reason : String) (said : reason ≠ "") :
    place.locate reason ≠ "" := by
  unfold locate
  split <;> simp [said]

namespace Fault

def isUnresolvedReference : Fault → Bool
  | .unresolvedReference .. => true
  | _ => false

theorem refused_speaks (refusal : Refusal) : (refused refusal).Speaks := by
  simp [Speaks, isExtractionFault]

theorem structural_speaks (reason : String) (place : Place) (said : reason ≠ "") :
    (structural reason place).Speaks :=
  fun _ => place.locate_ne_empty reason said

theorem emptySchema_speaks (reason : String) (place : Place) (said : reason ≠ "") :
    (emptySchema reason place).Speaks :=
  fun _ => place.locate_ne_empty reason said

theorem unresolvedReference_speaks (reason reference : String) (available : List String)
    (said : reason ≠ "") : (unresolvedReference reason reference available).Speaks := by
  intro _
  simp only [message]
  split
  next => exact said
  next => exact joinWith_cons_ne_empty _ _ _ (by simp)

theorem inFallback_message_ne_empty (dialect : String) {fault : Fault} (speaks : fault.Speaks) :
    (fault.inFallback dialect).message ≠ "" := by
  unfold inFallback
  split
  next own => exact speaks own
  -- A foreign fault may be silent, but it is wrapped in a sentence.
  next => simp [message]

@[simp] theorem isExtractionFault_inFallback (dialect : String) (fault : Fault) :
    (fault.inFallback dialect).isExtractionFault = true := by
  unfold inFallback
  split
  next own => exact own
  next => rfl

theorem isUnresolvedReference_inFallback (dialect : String) {fault : Fault}
    (unresolved : fault.isUnresolvedReference = true) :
    (fault.inFallback dialect).isUnresolvedReference = true := by
  cases fault <;> simp_all [isUnresolvedReference, inFallback, isExtractionFault]

end Fault

namespace Warning

def reportsDrop (warning : Warning) : Bool :=
  Text.beginsWith "Relationship dropped".toList warning.message.toList

theorem reportsDrop_unresolved_relationship (reference : String) (context : Option String) :
    (unresolved "Relationship" reference context).reportsDrop = true := by
  simp [reportsDrop, unresolved, Text.beginsWith, Text.dropLiteral?]

theorem reportsDrop_unresolved_index (reference : String) (context : Option String) :
    (unresolved "Index" reference context).reportsDrop = false := by
  simp [reportsDrop, unresolved, Text.beginsWith, Text.dropLiteral?]

theorem reportsDrop_redeclaration (severity : Severity) (table : String)
    (context : Option String) :
    reportsDrop { severity, message := redeclaration table, context } = false := by
  simp [reportsDrop, redeclaration, Text.beginsWith, Text.dropLiteral?]

/-- Dropped relationships are reported in one mode only. -/
def Allowed (mode : ErrorMode) (warning : Warning) : Prop :=
  warning.reportsDrop = true → mode = .warn

theorem allowed_of_plain {mode : ErrorMode} {warning : Warning}
    (plain : warning.reportsDrop = false) : warning.Allowed mode := by
  intro reported
  rw [plain] at reported
  cases reported

theorem Allowed.plain {mode : ErrorMode} {warning : Warning} (allowed : warning.Allowed mode)
    (silent : mode ≠ .warn) : warning.reportsDrop = false := by
  cases reported : warning.reportsDrop with
  | false => rfl
  | true => exact absurd (allowed reported) silent

end Warning

namespace Journaled

variable {α : Type} {fails : Fault → Prop} {returns : α → Prop}

theorem Keeps.allowed {x : Journaled α} (kept : x.Keeps (·.reportsDrop = false) fails returns)
    (mode : ErrorMode) : x.Keeps (·.Allowed mode) fails returns where
  warnings warning member := Warning.allowed_of_plain (kept.warnings warning member)
  fault := kept.fault
  value := kept.value

theorem draw_keeps : (record { draws := 1 }).Keeps (·.reportsDrop = false) fails fun _ => True :=
  .record (by simp) trivial

theorem reportRedeclaration_keeps (table : String) :
    (reportRedeclaration table).Keeps (·.reportsDrop = false) fails fun _ => True :=
  .record (by simp [Warning.reportsDrop_redeclaration]) trivial

end Journaled

end SchemaAtlas
