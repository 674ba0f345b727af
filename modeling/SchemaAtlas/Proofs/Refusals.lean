import SchemaAtlas.Proofs.Journaled
import SchemaAtlas.Schema.Column

/-!
Columns without a name or without a type are refused. Here is when a computation ends so: the
condition is put together from those of its steps.
-/

set_option autoImplicit false

namespace SchemaAtlas

/-- Whether a refusal is about the making of a column. -/
def Refusal.isOfColumn : Refusal → Bool
  | .emptyColumnName | .emptyColumnType _ => true
  | _ => false

/-- A computation that succeeds unless something is blank, and then refuses a column. -/
structure RefusesIf {α : Type} (blank : Prop) (x : Except Fault α) : Prop where
  refused : blank → ∃ refusal, refusal.isOfColumn = true ∧ x = .error (.refused refusal)
  returned : ¬ blank → ∃ a, x = .ok a

namespace RefusesIf

variable {α β σ : Type} {blank blank' : Prop}

theorem ok (a : α) : RefusesIf False (.ok a) where
  refused := False.elim
  returned _ := ⟨a, rfl⟩

theorem congr {x : Except Fault α} (refuses : RefusesIf blank x) (same : blank ↔ blank') :
    RefusesIf blank' x where
  refused held := refuses.refused (same.mpr held)
  returned free := refuses.returned (mt same.mp free)

theorem of_returns {x : Journaled α} {returns : α → Prop} (returned : x.Returns returns) :
    RefusesIf False x.outcome where
  refused := False.elim
  returned _ := by
    obtain ⟨a, found, -⟩ := returned
    exact ⟨a, found⟩

theorem map {x : Except Fault α} (f : α → β) (refuses : RefusesIf blank x) :
    RefusesIf blank (x.map f) where
  refused held := by
    obtain ⟨refusal, ofColumn, rfl⟩ := refuses.refused held
    exact ⟨refusal, ofColumn, rfl⟩
  returned free := by
    obtain ⟨a, rfl⟩ := refuses.returned free
    exact ⟨f a, rfl⟩

theorem bind {x : Except Fault α} {f : α → Except Fault β} (first : RefusesIf blank x)
    (second : ∀ a, RefusesIf blank' (f a)) : RefusesIf (blank ∨ blank') (x.bind f) := by
  by_cases held : blank
  next =>
    obtain ⟨refusal, ofColumn, rfl⟩ := first.refused held
    exact ⟨fun _ => ⟨refusal, ofColumn, rfl⟩, fun free => absurd (.inl held) free⟩
  next =>
    obtain ⟨a, rfl⟩ := first.returned held
    exact (second a).congr (by simp [held])

theorem journaled {x : Journaled α} {f : α → Journaled β} (first : RefusesIf blank x.outcome)
    (second : ∀ a, RefusesIf blank' (f a).outcome) :
    RefusesIf (blank ∨ blank') (x >>= f).outcome := by
  rw [Journaled.bind_outcome]
  exact first.bind second

/-- What is done behind a computation and always succeeds changes nothing. -/
theorem before {x : Journaled α} {f : α → Journaled β}
    (first : RefusesIf blank x.outcome) (second : ∀ a, (f a).Returns fun _ => True) :
    RefusesIf blank (x >>= f).outcome :=
  (first.journaled fun a => of_returns (second a)).congr (or_iff_left not_false)

theorem behind {x : Journaled α} {f : α → Journaled β} {returns : α → Prop}
    (first : x.Returns returns) (second : ∀ a, returns a → RefusesIf blank (f a).outcome) :
    RefusesIf blank (x >>= f).outcome := by
  obtain ⟨a, found, holds⟩ := first
  rw [Journaled.bind_outcome, found]
  exact second a holds

theorem mapM {f : α → Except Fault β} {blank : α → Prop} {items : List α}
    (each : ∀ item ∈ items, RefusesIf (blank item) (f item)) :
    RefusesIf (∃ item ∈ items, blank item) (items.mapM f) := by
  induction items with
  | nil => exact (ok []).congr (by simp)
  | cons item items ih =>
    have later := ih fun other member => each other (.tail _ member)
    rw [List.mapM_cons]
    refine ((each item (.head _)).bind fun b => later.bind fun found => ok (b :: found)).congr ?_
    simp

theorem foldlM {step : σ → α → Journaled σ} {blank : α → Prop} {items : List α}
    (each : ∀ state, ∀ item ∈ items, RefusesIf (blank item) (step state item).outcome)
    (state : σ) : RefusesIf (∃ item ∈ items, blank item) (items.foldlM step state).outcome := by
  induction items generalizing state with
  | nil => exact (ok state).congr (by simp)
  | cons item items ih =>
    have later := ih fun state other member => each state other (.tail _ member)
    rw [List.foldlM_cons]
    exact ((each state item (.head _)).journaled later).congr (by simp)

theorem column (name type : String) (isPrimaryKey isUnique isNotNull : Bool)
    (references : Option ColumnReference) (defaultValue : Option String) :
    RefusesIf (name = "" ∨ type = "") ((Column.ofFields? name type isPrimaryKey isUnique isNotNull
      references defaultValue).mapError Fault.refused) := by
  unfold Column.ofFields?
  split
  next unnamed => exact ⟨fun _ => ⟨_, rfl, rfl⟩, fun free => absurd (.inl unnamed) free⟩
  next named =>
    split
    next untyped => exact ⟨fun _ => ⟨_, rfl, rfl⟩, fun free => absurd (.inr untyped) free⟩
    next typed => exact (ok _).congr (by simp [named, typed])

end RefusesIf

/-- A reading that refuses a column if something is blank, and otherwise ends as it announces. -/
structure EndsUnless {α : Type} (blank : Prop) (announces : Fault → Bool) (x : Except Fault α) :
    Prop where
  refused : blank → ∃ refusal, refusal.isOfColumn = true ∧ x = .error (.refused refusal)
  announced : ¬ blank → FailsOnly (announces · = true) x

namespace EndsUnless

variable {α β : Type} {blank blank' : Prop} {announces : Fault → Bool}

theorem of_failsOnly {x : Except Fault α} (kept : FailsOnly (announces · = true) x) :
    EndsUnless False announces x :=
  ⟨False.elim, fun _ => kept⟩

theorem congr {x : Except Fault α} (ends : EndsUnless blank announces x)
    (same : blank ↔ blank') : EndsUnless blank' announces x where
  refused held := ends.refused (same.mpr held)
  announced free := ends.announced (mt same.mp free)

theorem before {x : Except Fault α} {f : α → Except Fault β} (first : RefusesIf blank x)
    (second : ∀ a, FailsOnly (announces · = true) (f a)) :
    EndsUnless blank announces (x.bind f) where
  refused held := by
    obtain ⟨refusal, ofColumn, rfl⟩ := first.refused held
    exact ⟨refusal, ofColumn, rfl⟩
  announced free := by
    obtain ⟨a, rfl⟩ := first.returned free
    exact second a

theorem of_refusesIf {x : Except Fault α} (refuses : RefusesIf blank x) :
    EndsUnless blank announces x where
  refused := refuses.refused
  announced free := by
    obtain ⟨a, rfl⟩ := refuses.returned free
    exact .ok a

theorem failsOnly_iff {x : Except Fault α} (ends : EndsUnless blank announces x)
    (silent : ∀ refusal, announces (.refused refusal) = false) :
    FailsOnly (announces · = true) x ↔ ¬ blank := by
  refine ⟨fun kept held => ?_, ends.announced⟩
  obtain ⟨refusal, -, refused⟩ := ends.refused held
  have announced := kept _ refused
  simp [silent] at announced

end EndsUnless

end SchemaAtlas
