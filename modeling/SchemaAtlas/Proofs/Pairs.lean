import Mathlib.Data.List.Forall2

/-!
Two lists of the same length whose items at each place are related, and two searches that find
related values.
-/

set_option autoImplicit false

namespace SchemaAtlas

variable {α β γ : Type} {related : α → β → Prop} {as : List α} {bs : List β}

theorem exists_of_forall₂ (pairs : List.Forall₂ related as bs) {b : β} (member : b ∈ bs) :
    ∃ a ∈ as, related a b := by
  induction pairs with
  | nil => cases member
  | cons pair _ ih =>
    rcases List.mem_cons.mp member with rfl | later
    · exact ⟨_, .head _, pair⟩
    · obtain ⟨a, inside, found⟩ := ih later
      exact ⟨a, .tail _ inside, found⟩

theorem exists_getElem?_of_forall₂ (pairs : List.Forall₂ related as bs) {place : Nat} {b : β}
    (here : bs[place]? = some b) : ∃ a, as[place]? = some a ∧ related a b := by
  induction pairs generalizing place with
  | nil => cases here
  | cons pair _ ih =>
    cases place with
    | zero => exact ⟨_, rfl, Option.some.inj here ▸ pair⟩
    | succ place => exact ih here

theorem map_eq_map_of_forall₂ {f : α → γ} {g : β → γ} (pairs : List.Forall₂ related as bs)
    (each : ∀ a b, related a b → f a = g b) : as.map f = bs.map g := by
  induction pairs with
  | nil => rfl
  | cons pair _ ih => rw [List.map_cons, List.map_cons, each _ _ pair, ih]

/-- Two lists that are related to one list are related to each other. -/
theorem forall₂_join {other : α → γ → Prop} {joined : β → γ → Prop} {cs : List γ}
    (first : List.Forall₂ related as bs) (second : List.Forall₂ other as cs)
    (each : ∀ a b c, related a b → other a c → joined b c) : List.Forall₂ joined bs cs := by
  induction first generalizing cs with
  | nil =>
    cases second
    exact .nil
  | cons pair _ ih =>
    cases second with
    | cons pair' rest => exact .cons (each _ _ _ pair pair') (ih rest)

section Chains

variable {m : Type → Type} [Monad m] {α β γ : Type} {related : α → β → Prop} {as : List α}
  {bs : List β}

theorem mapM_eq_of_forall₂ [LawfulMonad m] {f : α → m γ} {g : β → m γ} (pairs : List.Forall₂ related as bs)
    (each : ∀ a b, related a b → f a = g b) : as.mapM f = bs.mapM g := by
  induction pairs with
  | nil => rfl
  | cons pair _ ih => rw [List.mapM_cons, List.mapM_cons, each _ _ pair, ih]

theorem mapM_congr [LawfulMonad m] {f g : α → m γ} (each : ∀ a ∈ as, f a = g a) :
    as.mapM f = as.mapM g := by
  induction as with
  | nil => rfl
  | cons a as ih =>
    rw [List.mapM_cons, List.mapM_cons, each a (.head _),
      ih fun b member => each b (.tail _ member)]

theorem foldlM_eq_of_forall₂ {f : γ → α → m γ} {g : γ → β → m γ}
    (pairs : List.Forall₂ related as bs) (each : ∀ state a b, related a b → f state a = g state b)
    (state : γ) : as.foldlM f state = bs.foldlM g state := by
  induction pairs generalizing state with
  | nil => rfl
  | cons pair _ ih => rw [List.foldlM_cons, List.foldlM_cons, each _ _ _ pair, funext ih]

end Chains

section Searches

variable {δ : Type} {related : α → β → Prop} {found : γ → δ → Prop} {x : Option α} {y : Option β}

theorem eq_of_rel (pair : Option.Rel related x y) :
    (x = none ∧ y = none) ∨ ∃ a b, x = some a ∧ y = some b ∧ related a b := by
  cases pair with
  | some holds => exact .inr ⟨_, _, rfl, rfl, holds⟩
  | none => exact .inl ⟨rfl, rfl⟩

theorem rel_map {f : α → γ} {g : β → δ} (first : Option.Rel related x y)
    (each : ∀ a b, related a b → found (f a) (g b)) : Option.Rel found (x.map f) (y.map g) := by
  cases first with
  | some pair => exact .some (each _ _ pair)
  | none => exact .none

theorem rel_bind {f : α → Option γ} {g : β → Option δ} (first : Option.Rel related x y)
    (second : ∀ a b, related a b → Option.Rel found (f a) (g b)) :
    Option.Rel found (x.bind f) (y.bind g) := by
  cases first with
  | some pair => exact second _ _ pair
  | none => exact .none

theorem rel_findSome? {f : α → Option γ} {g : α → Option δ} {items : List α}
    (each : ∀ a ∈ items, Option.Rel found (f a) (g a)) :
    Option.Rel found (items.findSome? f) (items.findSome? g) := by
  induction items with
  | nil => exact .none
  | cons a items ih =>
    rw [List.findSome?_cons, List.findSome?_cons]
    obtain ⟨none, none'⟩ | ⟨c, d, first, second, alike⟩ := eq_of_rel (each a (.head _))
    · simpa only [none, none'] using ih fun b member => each b (.tail _ member)
    · simpa only [first, second] using Option.Rel.some alike

theorem isSome_eq_of_rel (pair : Option.Rel related x y) : x.isSome = y.isSome := by
  cases pair <;> rfl

end Searches

end SchemaAtlas
