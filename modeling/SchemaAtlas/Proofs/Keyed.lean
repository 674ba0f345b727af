import Mathlib.Data.List.Nodup
import Mathlib.Data.List.Perm.Basic
import SchemaAtlas.Proofs.Firsts

/-!
Lists of items with keys. An item that is put among others takes the place of the one with its key,
so that a list put together item by item holds the newest item of every key, in the order in which
the keys came first.
-/

set_option autoImplicit false

namespace SchemaAtlas

section Search

variable {α : Type} {name : α → String} {items others : List α}

theorem find?_eq_some_of_nodup (distinct : (items.map name).Nodup) {key : String} {item : α} :
    items.find? (name · = key) = some item ↔ item ∈ items ∧ name item = key := by
  constructor
  next =>
    intro found
    exact ⟨List.mem_of_find?_eq_some found, by simpa using List.find?_some found⟩
  next =>
    rintro ⟨member, rfl⟩
    cases found : items.find? (name · = name item) with
    | none =>
      have other := List.find?_eq_none.mp found item member
      simp at other
    | some other =>
      have named : name other = name item := by simpa using List.find?_some found
      rw [List.inj_on_of_nodup_map distinct (List.mem_of_find?_eq_some found) member named]

theorem getLast?_filter_of_last {item : α} (last : name item ∉ others.map name) :
    ((items ++ item :: others).filter (name · = name item)).getLast? = some item := by
  have none : others.filter (name · = name item) = [] := by
    refine List.filter_eq_nil_iff.mpr fun other member same => last ?_
    exact List.mem_map.mpr ⟨other, member, of_decide_eq_true same⟩
  rw [List.filter_append, List.filter_cons_of_pos (by simp), none]
  simp

theorem find?_perm (perm : items.Perm others) (distinct : (items.map name).Nodup) (key : String) :
    items.find? (name · = key) = others.find? (name · = key) := by
  have apart : (others.map name).Nodup := (perm.map name).nodup_iff.mp distinct
  refine Option.ext fun item => ?_
  rw [find?_eq_some_of_nodup distinct, find?_eq_some_of_nodup apart, perm.mem_iff]

end Search

namespace Keyed

variable {α : Type} (key : α → String)

/-- An item put among others: in the place of one with the same key, or at the end. -/
def put (items : List α) (item : α) : List α :=
  match items with
  | [] => [item]
  | other :: items => if key other = key item then item :: items else other :: put items item

/-- The list that items make when they are put one after the other. -/
def merge (items : List α) : List α := items.foldl (put key) []

variable {key} {items : List α} {item other : α}

theorem keys_put (items : List α) (item : α) : (put key items item).map key =
    if key item ∈ items.map key then items.map key else items.map key ++ [key item] := by
  induction items with
  | nil => rfl
  | cons other items ih =>
    by_cases same : key other = key item
    next => simp [put, same]
    next =>
      simp only [put, if_neg same, List.map_cons, ih, List.mem_cons, Ne.symm same, false_or]
      split <;> rfl

theorem nodup_keys_put (item : α) (distinct : (items.map key).Nodup) :
    ((put key items item).map key).Nodup := by
  rw [keys_put]
  exact Firsts.nodup_append_new (key item) distinct

theorem mem_put (member : other ∈ put key items item) : other = item ∨ other ∈ items := by
  induction items with
  | nil => exact .inl (List.mem_singleton.mp member)
  | cons head items ih =>
    unfold put at member
    split at member
    next => exact (List.mem_cons.mp member).imp_right (List.mem_cons_of_mem head)
    next =>
      rcases List.mem_cons.mp member with rfl | later
      · exact .inr List.mem_cons_self
      · exact (ih later).imp_right (List.mem_cons_of_mem head)

theorem self_mem_put (items : List α) (item : α) : item ∈ put key items item := by
  induction items with
  | nil => exact List.mem_singleton_self item
  | cons head items ih =>
    unfold put
    split
    next => exact List.mem_cons_self
    next => exact List.mem_cons_of_mem head ih

theorem key_ne_of_mem_put (distinct : (items.map key).Nodup) (member : other ∈ put key items item)
    (different : other ≠ item) : other ∈ items ∧ key other ≠ key item := by
  refine ⟨(mem_put member).resolve_left different, fun same => different ?_⟩
  exact List.inj_on_of_nodup_map (nodup_keys_put item distinct) member (self_mem_put _ _) same

theorem put_append (new : key item ∉ items.map key) (others : List α) :
    put key (items ++ others) item = items ++ put key others item := by
  induction items with
  | nil => rfl
  | cons head items ih =>
    rw [List.map_cons, List.mem_cons, not_or] at new
    rw [List.cons_append, put, if_neg (Ne.symm new.1), ih new.2, List.cons_append]

theorem put_of_new (new : key item ∉ items.map key) : put key items item = items ++ [item] := by
  have last := put_append new []
  rwa [List.append_nil] at last

theorem find?_put (items : List α) (item : α) (sought : String) :
    (put key items item).find? (key · = sought) =
      if key item = sought then some item else items.find? (key · = sought) := by
  induction items with
  | nil => by_cases same : key item = sought <;> simp [put, same]
  | cons head items ih =>
    unfold put
    by_cases same : key head = key item
    next =>
      rw [if_pos same, List.find?_cons, List.find?_cons, same]
      by_cases here : key item = sought <;> simp [here]
    next =>
      rw [if_neg same, List.find?_cons, List.find?_cons, ih]
      by_cases here : key head = sought
      next =>
        have apart : key item ≠ sought := fun found => same (here.trans found.symm)
        simp [here, apart]
      next => simp [here]

theorem map_put {f : α → α} (kept : ∀ item, key (f item) = key item) (items : List α) (item : α) :
    (put key items item).map f = put key (items.map f) (f item) := by
  induction items with
  | nil => rfl
  | cons head items ih =>
    rw [List.map_cons, put, put, kept, kept]
    split
    next => rfl
    next => rw [List.map_cons, ih]

theorem merge_append (items others : List α) :
    merge key (items ++ others) = others.foldl (put key) (merge key items) := by
  rw [merge, List.foldl_append]
  rfl

theorem merge_concat (items : List α) (item : α) :
    merge key (items ++ [item]) = put key (merge key items) item :=
  merge_append items [item]

theorem keys_merge (items : List α) : (merge key items).map key = (items.map key).eraseDups := by
  -- From the end: the last item is the one that is put among all others.
  induction items using List.reverseRecOn with
  | nil => rfl
  | append_singleton items item ih =>
    rw [merge_concat, keys_put, ih, List.map_append, List.map_singleton, Firsts.eraseDups_concat]

theorem nodup_keys_merge (items : List α) : ((merge key items).map key).Nodup := by
  rw [keys_merge]
  exact Firsts.nodup_eraseDups _

theorem find?_merge (items : List α) (sought : String) :
    (merge key items).find? (key · = sought) = (items.filter (key · = sought)).getLast? := by
  induction items using List.reverseRecOn with
  | nil => rfl
  | append_singleton items item ih =>
    rw [merge_concat, find?_put, ih, List.filter_append, List.getLast?_append]
    by_cases same : key item = sought <;> simp [same]

/-- Of the items of one key the last one is kept. -/
theorem mem_merge_iff : item ∈ merge key items ↔
    (items.filter (key · = key item)).getLast? = some item := by
  rw [← find?_merge, find?_eq_some_of_nodup (nodup_keys_merge items)]
  exact (and_iff_left rfl).symm

theorem mem_of_mem_merge (member : item ∈ merge key items) : item ∈ items :=
  (List.mem_filter.mp (List.mem_of_getLast? (mem_merge_iff.mp member))).1

theorem mem_merge_of_last {before behind : List α} (last : key item ∉ behind.map key) :
    item ∈ merge key (before ++ item :: behind) :=
  mem_merge_iff.mpr (getLast?_filter_of_last last)

theorem merge_eq_nil_iff : merge key items = [] ↔ items = [] := by
  constructor
  next =>
    intro empty
    refine List.eq_nil_iff_forall_not_mem.mpr fun item member => ?_
    have named : key item ∈ (merge key items).map key := by
      rw [keys_merge, List.mem_eraseDups]
      exact List.mem_map_of_mem member
    rw [empty] at named
    cases named
  next =>
    rintro rfl
    rfl

theorem map_merge {f : α → α} (kept : ∀ item, key (f item) = key item) (items : List α) :
    (merge key items).map f = merge key (items.map f) := by
  induction items using List.reverseRecOn with
  | nil => rfl
  | append_singleton items item ih =>
    rw [merge_concat, map_put kept, ih, List.map_append, List.map_singleton, merge_concat]

theorem merge_append_of_disjoint {others : List α}
    (apart : (items.map key).Disjoint (others.map key)) :
    merge key (items ++ others) = merge key items ++ merge key others := by
  induction others using List.reverseRecOn with
  | nil => simp [merge]
  | append_singleton others item ih =>
    rw [List.map_append, List.disjoint_append_right, List.map_singleton,
      List.disjoint_singleton] at apart
    have new : key item ∉ (merge key items).map key := by
      rw [keys_merge, List.mem_eraseDups]
      exact apart.2
    rw [← List.append_assoc, merge_concat, ih apart.1, put_append new, merge_concat]

theorem merge_of_nodup (distinct : (items.map key).Nodup) : merge key items = items := by
  induction items using List.reverseRecOn with
  | nil => rfl
  | append_singleton items item ih =>
    rw [List.map_append, List.nodup_append] at distinct
    obtain ⟨before, -, apart⟩ := distinct
    have new : key item ∉ items.map key := fun member => apart _ member _ (by simp) rfl
    rw [merge_concat, ih before, put_of_new new]

/-- Items may be merged before others come. -/
theorem merge_merge_append (items others : List α) :
    merge key (merge key items ++ others) = merge key (items ++ others) := by
  rw [merge_append, merge_append, merge_of_nodup (nodup_keys_merge items)]

end Keyed

end SchemaAtlas
