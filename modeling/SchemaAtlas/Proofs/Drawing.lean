import SchemaAtlas.Proofs.Journaled

/-!
Computations with the random numbers they draw: what is known of a value together with how many
numbers were drawn on the way to it.
-/

set_option autoImplicit false

namespace SchemaAtlas.Journaled

variable {α β σ ι : Type}

/-- Every value of a computation is of a certain kind, given the number of its draws. -/
def Gives (returns : Nat → α → Prop) (x : Journaled α) : Prop :=
  ∀ a, x.outcome = .ok a → returns x.journal.draws a

namespace Gives

variable {returns returns' : Nat → α → Prop}

theorem imp {x : Journaled α} (given : x.Gives returns)
    (weaker : ∀ drawn a, returns drawn a → returns' drawn a) : x.Gives returns' :=
  fun a found => weaker _ a (given a found)

theorem any (x : Journaled α) : x.Gives fun _ _ => True := fun _ _ => trivial

theorem pure {a : α} (holds : returns 0 a) : (pure a : Journaled α).Gives returns := by
  intro b found
  cases found
  exact holds

theorem fail (fault : Fault) : (Journaled.fail fault : Journaled α).Gives returns := by
  intro b found
  cases found

theorem ofExcept {x : Except Fault α} (holds : ∀ a, x = .ok a → returns 0 a) :
    (ofExcept x).Gives returns := by
  intro b found
  rw [ofExcept_outcome] at found
  rw [ofExcept_journal]
  exact holds b found

theorem record {returns : Nat → Unit → Prop} {journal : Journal}
    (holds : returns journal.draws ()) : (record journal).Gives returns :=
  fun _ _ => holds

theorem warn (warning : Warning) : (warn warning).Gives fun drawn _ => drawn = 0 := record rfl

theorem bind {x : Journaled α} {f : α → Journaled β} {between : Nat → α → Prop}
    {returns : Nat → β → Prop} (first : x.Gives between)
    (second : ∀ drawn a, between drawn a → (f a).Gives fun more b => returns (drawn + more) b) :
    (x >>= f).Gives returns := by
  intro b found
  obtain ⟨a, early, late⟩ := bind_outcome_ok.mp found
  have draws : (x >>= f).journal.draws = x.journal.draws + (f a).journal.draws := by
    simp [Bind.bind, Journaled.bind, early]
  rw [draws]
  exact second _ a (first a early) b late

theorem mapFault {x : Journaled α} (f : Fault → Fault) (given : x.Gives returns) :
    (x.mapFault f).Gives returns :=
  fun a found => given a (mapFault_outcome_ok.mp found)

theorem foldlM {step : σ → ι → Journaled σ} {invariant : σ → Prop} (items : List ι)
    (steps : ∀ state item, invariant state → (step state item).Gives fun _ => invariant)
    (state : σ) (start : invariant state) :
    (items.foldlM step state).Gives fun _ => invariant := by
  induction items generalizing state with
  | nil => exact pure start
  | cons item items ih =>
    rw [List.foldlM_cons]
    exact (steps state item start).bind fun _ next holds => ih next holds

end Gives

end SchemaAtlas.Journaled
