import SchemaAtlas.Proofs.Journaled

/-!
Two computations side by side: they say and draw the same, and they end with the same fault or with
values that are related.
-/

set_option autoImplicit false

namespace SchemaAtlas.Journaled

variable {α β γ δ ι : Type}

/-- Two outcomes are the same fault, or two values that are related. -/
inductive EndAlike (related : α → β → Prop) : Except Fault α → Except Fault β → Prop
  | fault (fault : Fault) : EndAlike related (.error fault) (.error fault)
  | value {a : α} {b : β} (holds : related a b) : EndAlike related (.ok a) (.ok b)

theorem EndAlike.mapError {related : α → β → Prop} {x : Except Fault α} {y : Except Fault β}
    (ends : EndAlike related x y) (f : Fault → Fault) :
    EndAlike related (x.mapError f) (y.mapError f) := by
  cases ends with
  | fault fault => exact .fault (f fault)
  | value pair => exact .value pair

structure Alike (related : α → β → Prop) (x : Journaled α) (y : Journaled β) : Prop where
  journal : x.journal = y.journal
  outcome : EndAlike related x.outcome y.outcome

namespace Alike

variable {related : α → β → Prop} {found : γ → δ → Prop} {x : Journaled α} {y : Journaled β}

theorem pure {a : α} {b : β} (holds : related a b) :
    Alike related (pure a : Journaled α) (pure b) :=
  ⟨rfl, .value holds⟩

theorem fail (fault : Fault) : Alike related (fail fault) (fail fault) := ⟨rfl, .fault fault⟩

theorem self (x : Journaled α) : Alike (· = ·) x x := by
  refine ⟨rfl, ?_⟩
  cases x.outcome with
  | error fault => exact .fault fault
  | ok a => exact .value rfl

theorem imp {closer : α → β → Prop} (alike : Alike related x y)
    (pairs : ∀ a b, x.outcome = .ok a → y.outcome = .ok b → related a b → closer a b) :
    Alike closer x y := by
  obtain ⟨journal, outcome⟩ := x
  obtain ⟨journal', outcome'⟩ := y
  obtain ⟨same, ends⟩ := alike
  refine ⟨same, ?_⟩
  cases ends with
  | fault fault => exact .fault fault
  | value pair => exact .value (pairs _ _ rfl rfl pair)

theorem eq {x y : Journaled α} (alike : Alike (· = ·) x y) : x = y := by
  obtain ⟨journal, outcome⟩ := x
  obtain ⟨journal', outcome'⟩ := y
  obtain ⟨same, ends⟩ := alike
  simp only at same ends
  subst same
  cases ends with
  | fault fault => rfl
  | value pair => rw [pair]

theorem bind {f : α → Journaled γ} {g : β → Journaled δ} (first : Alike related x y)
    (second : ∀ a b, related a b → Alike found (f a) (g b)) : Alike found (x >>= f) (y >>= g) := by
  obtain ⟨journal, outcome⟩ := x
  obtain ⟨journal', outcome'⟩ := y
  obtain ⟨same, ends⟩ := first
  simp only at same ends
  subst same
  cases ends with
  | fault fault => exact ⟨rfl, .fault fault⟩
  | value pair =>
    obtain ⟨later, last⟩ := second _ _ pair
    exact ⟨congrArg (journal ++ ·) later, last⟩

theorem after (x : Journaled α) {f : α → Journaled γ} {g : α → Journaled δ}
    (later : ∀ a, Alike found (f a) (g a)) : Alike found (x >>= f) (x >>= g) := by
  refine (self x).bind fun a b same => ?_
  subst same
  exact later a

theorem mapFault (f : Fault → Fault) (alike : Alike related x y) :
    Alike related (x.mapFault f) (y.mapFault f) :=
  ⟨alike.journal, alike.outcome.mapError f⟩

theorem foldlM {step : α → ι → Journaled α} {step' : β → ι → Journaled β} (items : List ι)
    (steps : ∀ a b item, related a b → Alike related (step a item) (step' b item)) {a : α} {b : β}
    (start : related a b) : Alike related (items.foldlM step a) (items.foldlM step' b) := by
  induction items generalizing a b with
  | nil => exact pure start
  | cons item items ih =>
    rw [List.foldlM_cons, List.foldlM_cons]
    exact (steps a b item start).bind fun _ _ pair => ih pair

end Alike

end SchemaAtlas.Journaled
