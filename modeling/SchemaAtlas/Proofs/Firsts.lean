import Mathlib.Data.List.Basic
import Mathlib.Data.List.Induction

/-!
The first mentions of the items of a list: what one more item adds to them, and which of them comes
last.
-/

set_option autoImplicit false

namespace SchemaAtlas.Firsts

variable {α : Type} [BEq α] [LawfulBEq α]

theorem nodup_append_new {items : List α} (item : α) (distinct : items.Nodup) :
    (if item ∈ items then items else items ++ [item]).Nodup := by
  split
  next => exact distinct
  next fresh =>
    refine List.nodup_append.mpr ⟨distinct, by simp, ?_⟩
    intro other member last single
    rw [List.mem_singleton.mp single]
    exact fun same => fresh (same ▸ member)

theorem eraseDups_concat (items : List α) (item : α) :
    (items ++ [item]).eraseDups =
      if item ∈ items.eraseDups then items.eraseDups else items.eraseDups ++ [item] := by
  rw [List.eraseDups_append]
  by_cases known : item ∈ items <;> simp [List.removeAll, known, List.eraseDups_cons]

theorem nodup_eraseDups (items : List α) : items.eraseDups.Nodup := by
  induction items using List.reverseRecOn with
  | nil => exact List.nodup_nil
  | append_singleton items item ih =>
    rw [eraseDups_concat]
    exact nodup_append_new item ih

theorem eraseDups_of_nodup {items : List α} (distinct : items.Nodup) : items.eraseDups = items := by
  induction items using List.reverseRecOn with
  | nil => rfl
  | append_singleton items item ih =>
    obtain ⟨before, -, apart⟩ := List.nodup_append.mp distinct
    have fresh : item ∉ items := fun member => apart item member item (by simp) rfl
    rw [eraseDups_concat, ih before, if_neg fresh]

theorem filter_eraseDups (items : List α) (keeps : α → Bool) :
    items.eraseDups.filter keeps = (items.filter keeps).eraseDups := by
  induction items using List.reverseRecOn with
  | nil => rfl
  | append_singleton items item ih =>
    rw [eraseDups_concat, List.filter_append]
    by_cases kept : keeps item = true
    next =>
      have single : [item].filter keeps = [item] := by simp [kept]
      rw [single, eraseDups_concat, ← ih]
      split <;> simp_all
    next =>
      have none : [item].filter keeps = [] := by simp [kept]
      rw [none, List.append_nil, ← ih]
      split <;> simp [kept]

/-- A mention of an item stands at its place among the first mentions if it is the first one, and
behind that place if it is not. -/
theorem idxOf_eraseDups_append (before : List α) (item : α) (after : List α) :
    (before ++ item :: after).eraseDups.idxOf item ≤ before.eraseDups.length ∧
      ((before ++ item :: after).eraseDups.idxOf item = before.eraseDups.length ↔
        item ∉ before) := by
  rw [List.eraseDups_append]
  by_cases known : item ∈ before
  next =>
    have member : item ∈ before.eraseDups := List.mem_eraseDups.mpr known
    have within := List.idxOf_lt_length_of_mem member
    rw [List.idxOf_append_of_mem member]
    exact ⟨by omega, by simp only [known, not_true_eq_false, iff_false]; omega⟩
  next =>
    have fresh : item ∉ before.eraseDups := fun member => known (List.mem_eraseDups.mp member)
    have next : ((item :: after).removeAll before).eraseDups.idxOf item = 0 := by
      rw [List.removeAll, List.filter_cons_of_pos (by simpa using known), List.eraseDups_cons]
      exact List.idxOf_cons_self
    rw [List.idxOf_append_of_notMem fresh, next]
    exact ⟨Nat.le_refl _, iff_of_true rfl known⟩

/-- An item comes last among the first mentions exactly if no other one is mentioned for the first
time behind it. -/
theorem getLast?_eraseDups_iff {items : List α} {item : α} (member : item ∈ items) :
    items.eraseDups.getLast? = some item ↔
      ∀ other ∈ items, items.idxOf other ≤ items.idxOf item := by
  induction items using List.reverseRecOn with
  | nil => simp at member
  | append_singleton items last ih =>
    rw [eraseDups_concat]
    split
    next known =>
      have before {other : α} (mentioned : other ∈ items ++ [last]) : other ∈ items := by
        rcases List.mem_append.mp mentioned with before | single
        · exact before
        · exact List.mem_singleton.mp single ▸ List.mem_eraseDups.mp known
      have place {other : α} (mentioned : other ∈ items) :
          (items ++ [last]).idxOf other = items.idxOf other :=
        List.idxOf_append_of_mem mentioned
      rw [ih (before member), place (before member)]
      constructor
      next =>
        intro newest other mentioned
        rw [place (before mentioned)]
        exact newest other (before mentioned)
      next =>
        intro newest other mentioned
        rw [← place mentioned]
        exact newest other (List.mem_append_left [last] mentioned)
    next fresh =>
      have place : (items ++ [last]).idxOf last = items.length := by
        have new : last ∉ items := fun mentioned => fresh (List.mem_eraseDups.mpr mentioned)
        simp [List.idxOf_append_of_notMem new]
      rw [List.getLast?_concat]
      constructor
      next =>
        intro same other mentioned
        cases same
        have within := List.idxOf_lt_length_of_mem mentioned
        rw [List.length_append, List.length_singleton] at within
        omega
      next =>
        intro newest
        rcases List.mem_append.mp member with before | single
        · -- What is mentioned before the last item cannot be as far back as that.
          have within := List.idxOf_lt_length_of_mem before
          have behind := newest last (List.mem_append_right items (List.mem_singleton_self last))
          rw [place, List.idxOf_append_of_mem before] at behind
          omega
        · rw [List.mem_singleton.mp single]

end SchemaAtlas.Firsts
