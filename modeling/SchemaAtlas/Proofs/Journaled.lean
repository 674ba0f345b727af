import SchemaAtlas.Journal
import SchemaAtlas.Proofs.Pairs

/-!
Reasoning about computations that may fail and about journaled ones: what follows from the outcome
of a chain, and what every step of a chain keeps.
-/

set_option autoImplicit false

namespace SchemaAtlas

/-- Every fault of a computation is of a certain kind. -/
def FailsOnly {α : Type} (fails : Fault → Prop) (x : Except Fault α) : Prop :=
  ∀ fault, x = .error fault → fails fault

namespace FailsOnly

variable {α β ε : Type} {fails fails' : Fault → Prop}

theorem imp {x : Except Fault α} (kept : FailsOnly fails x)
    (weaker : ∀ fault, fails fault → fails' fault) : FailsOnly fails' x :=
  fun fault failed => weaker fault (kept fault failed)

theorem ok (a : α) : FailsOnly fails (.ok a) := by
  intro fault failed
  cases failed

theorem error {fault : Fault} (holds : fails fault) :
    FailsOnly fails (.error fault : Except Fault α) := by
  intro cause failed
  cases failed
  exact holds

theorem bind {x : Except Fault α} {f : α → Except Fault β} (first : FailsOnly fails x)
    (second : ∀ a, FailsOnly fails (f a)) : FailsOnly fails (x >>= f) := by
  cases x with
  | error cause => exact error (first cause rfl)
  | ok a => exact second a

theorem map {x : Except Fault α} (f : α → β) (kept : FailsOnly fails x) :
    FailsOnly fails (x.map f) := by
  cases x with
  | error cause => exact error (kept cause rfl)
  | ok a => exact ok (f a)

theorem mapError {x : Except ε α} {f : ε → Fault} (holds : ∀ cause, fails (f cause)) :
    FailsOnly fails (x.mapError f) := by
  cases x with
  | error cause => exact error (holds cause)
  | ok a => exact ok a

theorem mapM {f : α → Except Fault β} (items : List α)
    (each : ∀ item ∈ items, FailsOnly fails (f item)) : FailsOnly fails (items.mapM f) := by
  induction items with
  | nil => exact ok []
  | cons item items ih =>
    rw [List.mapM_cons]
    refine bind (each item (by simp)) fun b => ?_
    exact bind (ih fun item member => each item (by simp [member])) fun found => ok (b :: found)

end FailsOnly

theorem exists_eq_ok_iff {ε α : Type} {x : Except ε α} :
    (∃ a, x = .ok a) ↔ ¬ ∃ fault, x = .error fault := by
  cases x with
  | error fault => exact iff_of_false nofun (not_not.mpr ⟨fault, rfl⟩)
  | ok a => exact iff_of_true ⟨a, rfl⟩ nofun

theorem mapError_eq_ok {ε ε' α : Type} {f : ε → ε'} {x : Except ε α} {a : α} :
    x.mapError f = .ok a ↔ x = .ok a := by
  cases x with
  | error cause => exact ⟨nofun, nofun⟩
  | ok found => constructor <;> intro same <;> cases same <;> rfl

theorem mapError_eq_error {ε ε' α : Type} {f : ε → ε'} {x : Except ε α} {fault : ε'} :
    x.mapError f = .error fault ↔ ∃ cause, x = .error cause ∧ f cause = fault := by
  cases x with
  | error cause =>
    constructor
    next =>
      intro failed
      exact ⟨cause, rfl, Except.error.inj failed⟩
    next =>
      rintro ⟨_, same, rfl⟩
      cases same
      rfl
  | ok found => exact ⟨nofun, nofun⟩

theorem bind_eq_ok {ε α β : Type} {x : Except ε α} {f : α → Except ε β} {b : β} :
    x >>= f = .ok b ↔ ∃ a, x = .ok a ∧ f a = .ok b := by
  cases x <;> simp [bind, Except.bind]

theorem map_eq_ok {ε α β : Type} {x : Except ε α} {f : α → β} {b : β} :
    x.map f = .ok b ↔ ∃ a, x = .ok a ∧ f a = b := by
  cases x <;> simp [Except.map]

theorem map_eq_error {ε α β : Type} {x : Except ε α} {f : α → β} {fault : ε} :
    x.map f = .error fault ↔ x = .error fault := by
  cases x <;> simp [Except.map]

theorem toOption_eq_some {ε α : Type} {x : Except ε α} {a : α} :
    x.toOption = some a ↔ x = .ok a := by
  cases x <;> simp [Except.toOption]

theorem forall₂_of_mapM {ε α β : Type} {f : α → Except ε β} {items : List α} {found : List β}
    (mapped : items.mapM f = .ok found) :
    List.Forall₂ (fun item b => f item = .ok b) items found := by
  induction items generalizing found with
  | nil => cases mapped; exact .nil
  | cons item items ih =>
    rw [List.mapM_cons] at mapped
    obtain ⟨head, first, mapped⟩ := bind_eq_ok.mp mapped
    obtain ⟨tail, rest, same⟩ := bind_eq_ok.mp mapped
    cases same
    exact .cons first (ih rest)

theorem exists_of_mem_mapM {ε α β : Type} {f : α → Except ε β} {items : List α} {found : List β}
    {b : β} (mapped : items.mapM f = .ok found) (member : b ∈ found) :
    ∃ item ∈ items, f item = .ok b :=
  exists_of_forall₂ (forall₂_of_mapM mapped) member

/-- A chain over items that are related to others succeeds if every step does. -/
theorem exists_mapM {ε α β γ : Type} {related : α → β → Prop} {found : α → γ → Prop}
    {f : β → Except ε γ} {sources : List α} {items : List β}
    (pairs : List.Forall₂ related sources items)
    (each : ∀ source ∈ sources, ∀ item, related source item →
      ∃ result, f item = .ok result ∧ found source result) :
    ∃ results, items.mapM f = .ok results ∧ List.Forall₂ found sources results := by
  induction pairs with
  | nil => exact ⟨[], rfl, .nil⟩
  | @cons source item sources items pair _ ih =>
    obtain ⟨result, first, holds⟩ := each source (by simp) item pair
    obtain ⟨results, later, rest⟩ := ih fun other member => each other (by simp [member])
    refine ⟨result :: results, ?_, .cons holds rest⟩
    rw [List.mapM_cons, first, later]
    rfl

theorem map_of_mapM {ε α β γ : Type} {f : α → Except ε β} {g : β → γ} {h : α → γ} {items : List α}
    {found : List β} (mapped : items.mapM f = .ok found)
    (each : ∀ item b, f item = .ok b → g b = h item) : found.map g = items.map h := by
  induction items generalizing found with
  | nil => cases mapped; rfl
  | cons item items ih =>
    rw [List.mapM_cons] at mapped
    obtain ⟨head, first, mapped⟩ := bind_eq_ok.mp mapped
    obtain ⟨tail, rest, same⟩ := bind_eq_ok.mp mapped
    cases same
    rw [List.map_cons, List.map_cons, each item head first, ih rest]

theorem filterMap_of_mapM {ε α β γ : Type} {f : α → Except ε (Option β)} {g : β → γ}
    {h : α → Option γ} {items : List α} {found : List (Option β)}
    (mapped : items.mapM f = .ok found)
    (each : ∀ item b, f item = .ok b → b.map g = h item) :
    (found.filterMap id).map g = items.filterMap h := by
  calc (found.filterMap id).map g
    _ = (found.map (Option.map g)).filterMap id := by
      rw [List.map_filterMap, List.filterMap_map]
      rfl
    _ = (items.map h).filterMap id := by rw [map_of_mapM mapped each]
    _ = items.filterMap h := by rw [List.filterMap_map]; rfl

theorem mapM_eq_map {ε α β γ : Type} {f : α → Except ε γ} {g : α → Except ε β} {change : β → γ}
    (items : List α) (each : ∀ item ∈ items, f item = (g item).map change) :
    items.mapM f = (items.mapM g).map (List.map change) := by
  induction items with
  | nil => rfl
  | cons item items ih =>
    have later := ih fun other member => each other (by simp [member])
    rw [List.mapM_cons, List.mapM_cons, each item (by simp), later]
    cases g item with
    | error fault => rfl
    | ok b => cases items.mapM g <;> rfl

/-- A chain succeeds in any order of its items or in none, with its values in the same order. -/
theorem mapM_perm {ε α β : Type} {f : α → Except ε β} {items others : List α} {found : List β}
    (perm : items.Perm others) (mapped : items.mapM f = .ok found) :
    ∃ again, others.mapM f = .ok again ∧ found.Perm again := by
  induction perm generalizing found with
  | nil => exact ⟨found, mapped, .refl _⟩
  | cons item _ ih =>
    rw [List.mapM_cons] at mapped ⊢
    obtain ⟨b, first, mapped⟩ := bind_eq_ok.mp mapped
    obtain ⟨rest, behind, same⟩ := bind_eq_ok.mp mapped
    cases same
    obtain ⟨again, mapped', perm⟩ := ih behind
    exact ⟨b :: again, by rw [first, mapped']; rfl, perm.cons b⟩
  | swap one other items =>
    simp only [List.mapM_cons] at mapped ⊢
    obtain ⟨b, first, mapped⟩ := bind_eq_ok.mp mapped
    obtain ⟨behind, next, same⟩ := bind_eq_ok.mp mapped
    cases same
    obtain ⟨c, second, next⟩ := bind_eq_ok.mp next
    obtain ⟨rest, last, same⟩ := bind_eq_ok.mp next
    cases same
    exact ⟨c :: b :: rest, by rw [first, second, last]; rfl, .swap c b rest⟩
  | trans _ _ first second =>
    obtain ⟨between, mapped, perm⟩ := first mapped
    obtain ⟨again, mapped, perm'⟩ := second mapped
    exact ⟨again, mapped, perm.trans perm'⟩

/-- The journal without the warnings that `drops` selects. -/
def Journal.without (drops : Warning → Bool) (journal : Journal) : Journal :=
  { journal with warnings := journal.warnings.filter (!drops ·) }

@[simp] theorem Journal.without_append (drops : Warning → Bool) (first second : Journal) :
    (first ++ second).without drops = first.without drops ++ second.without drops := by
  ext1 <;> simp [without]

theorem Journal.without_eq_self {drops : Warning → Bool} {journal : Journal}
    (kept : ∀ warning ∈ journal.warnings, drops warning = false) :
    journal.without drops = journal := by
  have same : journal.warnings.filter (!drops ·) = journal.warnings :=
    List.filter_eq_self.mpr fun warning member => by simp [kept warning member]
  simp [without, same]

namespace Journaled

variable {α β σ : Type}

@[simp] theorem pure_outcome (a : α) : (pure a : Journaled α).outcome = .ok a := rfl
@[simp] theorem pure_journal (a : α) : (pure a : Journaled α).journal = {} := rfl
@[simp] theorem fail_outcome (fault : Fault) : (fail fault : Journaled α).outcome = .error fault :=
  rfl
@[simp] theorem fail_journal (fault : Fault) : (fail fault : Journaled α).journal = {} := rfl
@[simp] theorem record_outcome (journal : Journal) : (record journal).outcome = .ok () := rfl

@[simp] theorem ofExcept_outcome (x : Except Fault α) : (ofExcept x).outcome = x := by
  cases x <;> rfl

@[simp] theorem ofExcept_journal (x : Except Fault α) : (ofExcept x).journal = {} := by
  cases x <;> rfl

@[simp] theorem mapFault_journal (f : Fault → Fault) (x : Journaled α) :
    (x.mapFault f).journal = x.journal := rfl

theorem bind_outcome (x : Journaled α) (f : α → Journaled β) :
    (x >>= f).outcome = x.outcome.bind fun a => (f a).outcome := by
  cases found : x.outcome <;> simp [bind, Journaled.bind, Except.bind, found]

theorem bind_outcome_ok {x : Journaled α} {f : α → Journaled β} {b : β} :
    (x >>= f).outcome = .ok b ↔ ∃ a, x.outcome = .ok a ∧ (f a).outcome = .ok b := by
  rw [bind_outcome]
  cases x.outcome <;> simp [Except.bind]

theorem bind_outcome_error {x : Journaled α} {f : α → Journaled β} {fault : Fault} :
    (x >>= f).outcome = .error fault ↔
      x.outcome = .error fault ∨ ∃ a, x.outcome = .ok a ∧ (f a).outcome = .error fault := by
  rw [bind_outcome]
  cases x.outcome <;> simp [Except.bind]

@[simp] theorem map_outcome (f : α → β) (x : Journaled α) : (f <$> x).outcome = x.outcome.map f := by
  cases found : x.outcome <;> simp [Functor.map, Journaled.bind, Journaled.pure, Except.map, found]

@[simp] theorem map_journal (f : α → β) (x : Journaled α) : (f <$> x).journal = x.journal := by
  cases found : x.outcome <;> simp [Functor.map, Journaled.bind, Journaled.pure, found]

@[simp] theorem map_fail (f : α → β) (fault : Fault) : f <$> (fail fault : Journaled α) = fail fault :=
  rfl

theorem map_ofExcept (f : α → β) (x : Except Fault α) : f <$> ofExcept x = ofExcept (x.map f) := by
  cases x <;> rfl

theorem mapFault_outcome_ok {f : Fault → Fault} {x : Journaled α} {a : α} :
    (x.mapFault f).outcome = .ok a ↔ x.outcome = .ok a :=
  mapError_eq_ok

theorem mapFault_outcome_error {f : Fault → Fault} {x : Journaled α} {fault : Fault} :
    (x.mapFault f).outcome = .error fault ↔ ∃ cause, x.outcome = .error cause ∧ f cause = fault :=
  mapError_eq_error

theorem bind_congr {x : Journaled α} {f g : α → Journaled β}
    (same : ∀ a, x.outcome = .ok a → f a = g a) : x >>= f = x >>= g := by
  cases found : x.outcome with
  | error fault => simp [bind, Journaled.bind, found]
  | ok a => simp [bind, Journaled.bind, found, same a found]

theorem forall₂_of_mapM {f : α → Journaled β} {items : List α} {found : List β}
    (mapped : (items.mapM f).outcome = .ok found) :
    List.Forall₂ (fun item b => (f item).outcome = .ok b) items found := by
  induction items generalizing found with
  | nil => cases mapped; exact .nil
  | cons item items ih =>
    rw [List.mapM_cons] at mapped
    obtain ⟨head, first, mapped⟩ := bind_outcome_ok.mp mapped
    obtain ⟨tail, rest, same⟩ := bind_outcome_ok.mp mapped
    cases same
    exact .cons first (ih rest)

theorem mem_bind_warnings {x : Journaled α} {f : α → Journaled β} {warning : Warning} :
    warning ∈ (x >>= f).journal.warnings ↔
      warning ∈ x.journal.warnings ∨
        ∃ a, x.outcome = .ok a ∧ warning ∈ (f a).journal.warnings := by
  cases found : x.outcome <;> simp [bind, Journaled.bind, found]

/-- Every warning, every fault and every value of a computation is of a certain kind. -/
structure Keeps (warns : Warning → Prop) (fails : Fault → Prop) (returns : α → Prop)
    (x : Journaled α) : Prop where
  warnings : ∀ warning ∈ x.journal.warnings, warns warning
  fault : ∀ fault, x.outcome = .error fault → fails fault
  value : ∀ a, x.outcome = .ok a → returns a

namespace Keeps

variable {warns : Warning → Prop} {fails fails' : Fault → Prop} {returns returns' : α → Prop}

theorem imp {x : Journaled α} (kept : x.Keeps warns fails returns)
    (weaker : ∀ a, returns a → returns' a) : x.Keeps warns fails returns' where
  warnings := kept.warnings
  fault := kept.fault
  value a found := weaker a (kept.value a found)

theorem impFault {x : Journaled α} (kept : x.Keeps warns fails returns)
    (weaker : ∀ fault, fails fault → fails' fault) : x.Keeps warns fails' returns where
  warnings := kept.warnings
  fault fault failed := weaker fault (kept.fault fault failed)
  value := kept.value

theorem pure {a : α} (holds : returns a) : (pure a : Journaled α).Keeps warns fails returns where
  warnings := by simp
  fault := by simp
  value := by simpa using holds

theorem fail {fault : Fault} (holds : fails fault) :
    (Journaled.fail fault : Journaled α).Keeps warns fails returns where
  warnings := by simp
  fault := by simpa using holds
  value := by simp

theorem ofExcept {x : Except Fault α} (failed : FailsOnly fails x)
    (found : ∀ a, x = .ok a → returns a) : (ofExcept x).Keeps warns fails returns where
  warnings := by simp
  fault fault met := failed fault (by simpa using met)
  value := by simpa using found

theorem record {journal : Journal} {returns : Unit → Prop}
    (holds : ∀ warning ∈ journal.warnings, warns warning) (returned : returns ()) :
    (record journal).Keeps warns fails returns where
  warnings := holds
  fault := by simp
  value _ _ := returned

theorem warn {warning : Warning} (holds : warns warning) :
    (warn warning).Keeps warns fails fun _ => True :=
  record (by simpa using holds) trivial

theorem bind {x : Journaled α} {f : α → Journaled β} {between : α → Prop} {returns : β → Prop}
    (first : x.Keeps warns fails between)
    (second : ∀ a, between a → (f a).Keeps warns fails returns) :
    (x >>= f).Keeps warns fails returns where
  warnings warning member := by
    rcases mem_bind_warnings.mp member with early | ⟨a, found, late⟩
    · exact first.warnings warning early
    · exact (second a (first.value a found)).warnings warning late
  fault fault failed := by
    rcases bind_outcome_error.mp failed with early | ⟨a, found, late⟩
    · exact first.fault fault early
    · exact (second a (first.value a found)).fault fault late
  value b found := by
    obtain ⟨a, early, late⟩ := bind_outcome_ok.mp found
    exact (second a (first.value a early)).value b late

theorem mapFault {x : Journaled α} {f : Fault → Fault} (kept : x.Keeps warns fails returns)
    (holds : ∀ fault, fails fault → fails' (f fault)) :
    (x.mapFault f).Keeps warns fails' returns where
  warnings := kept.warnings
  fault _ failed := by
    obtain ⟨cause, caused, rfl⟩ := mapFault_outcome_error.mp failed
    exact holds cause (kept.fault cause caused)
  value a found := kept.value a (mapFault_outcome_ok.mp found)

theorem foldlM {step : σ → α → Journaled σ} {invariant : σ → Prop} (items : List α)
    (steps : ∀ state, ∀ item ∈ items, invariant state →
      (step state item).Keeps warns fails invariant)
    (state : σ) (start : invariant state) :
    (items.foldlM step state).Keeps warns fails invariant := by
  -- The start is general: the rest of the run begins at whatever the first step left.
  induction items generalizing state with
  | nil => exact pure start
  | cons item items ih =>
    rw [List.foldlM_cons]
    refine bind (steps state item (by simp) start) fun next holds => ?_
    exact ih (fun state item member => steps state item (by simp [member])) next holds

theorem mapM {f : α → Journaled β} {returns : β → Prop} (items : List α)
    (each : ∀ item ∈ items, (f item).Keeps warns fails returns) :
    (items.mapM f).Keeps warns fails fun found => ∀ b ∈ found, returns b := by
  induction items with
  | nil => exact pure (by simp)
  | cons item items ih =>
    rw [List.mapM_cons]
    refine bind (each item (by simp)) fun b holds => ?_
    refine bind (ih fun item member => each item (by simp [member])) fun found rest => ?_
    exact pure (by simpa using ⟨holds, rest⟩)

end Keeps

def without (drops : Warning → Bool) (x : Journaled α) : Journaled α where
  journal := x.journal.without drops
  outcome := x.outcome

@[simp] theorem without_outcome (drops : Warning → Bool) (x : Journaled α) :
    (x.without drops).outcome = x.outcome := rfl

@[simp] theorem without_journal (drops : Warning → Bool) (x : Journaled α) :
    (x.without drops).journal = x.journal.without drops := rfl

theorem without_eq_self {drops : Warning → Bool} {x : Journaled α}
    (kept : ∀ warning ∈ x.journal.warnings, drops warning = false) : x.without drops = x := by
  rw [without, Journal.without_eq_self kept]

theorem without_bind (drops : Warning → Bool) (x : Journaled α) (f : α → Journaled β) :
    (x >>= f).without drops = x.without drops >>= fun a => (f a).without drops := by
  cases found : x.outcome with
  | error fault => simp [bind, Journaled.bind, without, found]
  | ok a => simp [bind, Journaled.bind, without, found]

theorem Keeps.without_eq_self {drops : Warning → Bool} {fails : Fault → Prop} {returns : α → Prop}
    {x : Journaled α} (kept : x.Keeps (drops · = false) fails returns) : x.without drops = x :=
  Journaled.without_eq_self kept.warnings

@[simp] theorem without_mapFault (drops : Warning → Bool) (f : Fault → Fault) (x : Journaled α) :
    (x.mapFault f).without drops = (x.without drops).mapFault f := rfl

theorem bind_eq_without {drops : Warning → Bool} {x x' : Journaled α} {f f' : α → Journaled β}
    (first : x' = x.without drops) (second : ∀ a, f' a = (f a).without drops) :
    x' >>= f' = (x >>= f).without drops := by
  rw [without_bind, first, funext second]

/-- A computation succeeds, with a value of a certain kind. -/
def Returns (returns : α → Prop) (x : Journaled α) : Prop := ∃ a, x.outcome = .ok a ∧ returns a

namespace Returns

variable {returns returns' : α → Prop}

theorem imp {x : Journaled α} (returned : x.Returns returns)
    (weaker : ∀ a, returns a → returns' a) : x.Returns returns' := by
  obtain ⟨a, found, holds⟩ := returned
  exact ⟨a, found, weaker a holds⟩

theorem pure {a : α} (holds : returns a) : (pure a : Journaled α).Returns returns :=
  ⟨a, rfl, holds⟩

theorem record (journal : Journal) : (record journal).Returns fun _ => True := ⟨(), rfl, trivial⟩

theorem ofExcept {x : Except Fault α} {a : α} (found : x = .ok a) :
    (ofExcept x).Returns (· = a) :=
  ⟨a, by rw [ofExcept_outcome, found], rfl⟩

theorem bind {x : Journaled α} {f : α → Journaled β} {between : α → Prop} {returns : β → Prop}
    (first : x.Returns between) (second : ∀ a, between a → (f a).Returns returns) :
    (x >>= f).Returns returns := by
  obtain ⟨a, found, holds⟩ := first
  obtain ⟨b, last, held⟩ := second a holds
  exact ⟨b, bind_outcome_ok.mpr ⟨a, found, last⟩, held⟩

theorem mapFault {x : Journaled α} (f : Fault → Fault) (returned : x.Returns returns) :
    (x.mapFault f).Returns returns := by
  obtain ⟨a, found, holds⟩ := returned
  exact ⟨a, mapFault_outcome_ok.mpr found, holds⟩

theorem mapM {f : α → Journaled β} {returns : β → Prop} (items : List α)
    (each : ∀ item ∈ items, (f item).Returns returns) :
    (items.mapM f).Returns fun found => ∀ b ∈ found, returns b := by
  induction items with
  | nil => exact pure (by simp)
  | cons item items ih =>
    rw [List.mapM_cons]
    refine bind (each item (by simp)) fun b holds => ?_
    refine bind (ih fun item member => each item (by simp [member])) fun found rest => ?_
    exact pure (by simpa using ⟨holds, rest⟩)

theorem foldlM {step : σ → α → Journaled σ} {invariant : σ → Prop} (items : List α)
    (steps : ∀ state, ∀ item ∈ items, invariant state → (step state item).Returns invariant)
    (state : σ) (start : invariant state) : (items.foldlM step state).Returns invariant := by
  induction items generalizing state with
  | nil => exact pure start
  | cons item items ih =>
    rw [List.foldlM_cons]
    refine bind (steps state item (by simp) start) fun next holds => ?_
    exact ih (fun state item member => steps state item (by simp [member])) next holds

end Returns

theorem mapM_outcome {f : α → Journaled β} {g : α → β} (items : List α)
    (each : ∀ item ∈ items, (f item).outcome = .ok (g item)) :
    (items.mapM f).outcome = .ok (items.map g) := by
  induction items with
  | nil => rfl
  | cons item items ih =>
    have later := ih fun other member => each other (by simp [member])
    rw [List.mapM_cons, bind_outcome_ok]
    refine ⟨g item, each item (by simp), ?_⟩
    rw [bind_outcome_ok]
    exact ⟨items.map g, later, rfl⟩

/-- A computation that either fails with a fault of some kind or is another computation. -/
def FailsOr (gives : Fault → Prop) (x y : Journaled α) : Prop :=
  (∃ fault, x.outcome = .error fault ∧ gives fault) ∨ x = y

namespace FailsOr

variable {gives : Fault → Prop}

theorem refl (x : Journaled α) : FailsOr gives x x := .inr rfl

theorem bind {x y : Journaled α} {f g : α → Journaled β} (first : FailsOr gives x y)
    (second : ∀ a, FailsOr gives (f a) (g a)) : FailsOr gives (x >>= f) (y >>= g) := by
  rcases first with ⟨fault, failed, given⟩ | rfl
  · exact .inl ⟨fault, bind_outcome_error.mpr (.inl failed), given⟩
  -- The first steps are one; if it succeeds, both chains go on from the same value.
  cases found : x.outcome with
  | error fault => exact .inr (by simp [Bind.bind, Journaled.bind, found])
  | ok a =>
    rcases second a with ⟨fault, failed, given⟩ | same
    · exact .inl ⟨fault, bind_outcome_error.mpr (.inr ⟨a, found, failed⟩), given⟩
    · exact .inr (by simp [Bind.bind, Journaled.bind, found, same])

theorem mapFault {x y : Journaled α} {f : Fault → Fault} (related : FailsOr gives x y)
    (kept : ∀ fault, gives fault → gives (f fault)) :
    FailsOr gives (x.mapFault f) (y.mapFault f) := by
  rcases related with ⟨fault, failed, given⟩ | rfl
  · exact .inl ⟨f fault, mapFault_outcome_error.mpr ⟨fault, failed, rfl⟩, kept fault given⟩
  · exact refl _

end FailsOr

end Journaled

end SchemaAtlas
