import SchemaAtlas.Blocks.Model
import SchemaAtlas.Proofs.Text.Headers
import SchemaAtlas.Proofs.Text.Matches

/-!
The values of an enumeration: the words that are left of its body when each attribute in it is
deleted, up to the first closing parenthesis if it has arguments.
-/

set_option autoImplicit false

namespace SchemaAtlas.Blocks

open Text

namespace Attribute

theorem head?_unmarked {c : Char} (unmarked : c ≠ '@') (cs : List Char) : head? (c :: cs) = none := by
  unfold head?
  split
  next same => exact absurd (List.cons.inj same).1 unmarked
  next same => exact absurd (List.cons.inj same).1 unmarked
  next => rfl

theorem head?_single {cs : List Char} (single : cs.head? ≠ some '@') :
    head? ('@' :: cs) = takeRun? isNameChar cs := by
  cases cs with
  | nil => rfl
  | cons c cs =>
    have other : c ≠ '@' := by simpa using single
    unfold head?
    split
    next same => exact absurd (by simpa using same : c = '@' ∧ _).1 other
    next same => rw [(List.cons.inj same).2]
    next same => exact absurd rfl (same _)

/-- The name of an attribute ends in front of a character that no name holds. The mark of another
attribute may also be the second mark of this one, if nothing stands between. -/
theorem head?_append {c : Char} (outside : isNameChar c = false) {cs : List Char}
    (apart : c = '@' → cs ≠ [] ∧ cs ≠ ['@']) (rest : List Char) : head? (cs ++ c :: rest) =
      (head? cs).map fun found => (found.1, found.2 ++ c :: rest) := by
  have run := @takeRun?_break c rest isNameChar outside
  cases cs with
  | nil =>
    by_cases mark : c = '@'
    · exact absurd rfl (apart mark).1
    · rw [List.nil_append, head?_unmarked mark]
      rfl
  | cons d cs =>
    by_cases mark : d = '@'
    · subst mark
      cases cs with
      | nil =>
        have single : (c :: rest).head? ≠ some '@' := fun same =>
          (apart (by simpa using same)).2 rfl
        rw [List.cons_append, List.nil_append, head?_single single, head?_single (by simp)]
        exact run []
      | cons e cs =>
        by_cases double : e = '@'
        · subst double
          exact run cs
        · have single : (e :: cs).head? ≠ some '@' := by simpa using double
          rw [List.cons_append, List.cons_append, head?_single (by simpa using double),
            head?_single single]
          exact run (e :: cs)
    · rw [List.cons_append, head?_unmarked mark, head?_unmarked mark, Option.map_none]

/-- The name of an attribute ends in front of a parenthesis. -/
theorem head?_break (cs rest : List Char) : head? (cs ++ ')' :: rest) =
    (head? cs).map fun found => (found.1, found.2 ++ ')' :: rest) :=
  head?_append (by decide) (by simp) rest

theorem eq_append_of_head? {cs name rest : List Char} (found : head? cs = some (name, rest)) :
    ∃ mark, cs = '@' :: mark ++ rest := by
  unfold head? at found
  split at found
  next cs => exact ⟨'@' :: name, by simp [(eq_append_of_takeRun? found).1]⟩
  next cs _ => exact ⟨name, by simp [(eq_append_of_takeRun? found).1]⟩
  next => cases found

end Attribute

/-- The body of an enumeration without its attributes. -/
def unattributed (cs : List Char) : List Char := replaceMatches [' '] (fun _ => enumAttribute?) cs

theorem enumValues_eq (cs : List Char) :
    enumValues cs = (words (unattributed cs)).map String.ofList := rfl

theorem eq_append_of_enumAttribute? {cs rest : List Char} (found : enumAttribute? cs = some rest) :
    ∃ matched, matched ≠ [] ∧ cs = matched ++ rest := by
  obtain ⟨⟨name, behind⟩, head, left⟩ := Option.bind_eq_some_iff.mp found
  obtain ⟨mark, rfl⟩ := Attribute.eq_append_of_head? head
  have within : rest <:+ behind := by
    simp only at left
    split at left
    next inner =>
      split at left
      next => cases left; exact List.suffix_refl _
      next closer tail closed =>
        cases left
        have inside : closer :: rest <:+ inner := closed ▸ List.dropWhile_suffix _
        exact (List.suffix_cons _ _).trans (inside.trans (List.suffix_cons _ _))
    next => cases left; exact List.suffix_refl _
  obtain ⟨front, rfl⟩ := within
  exact ⟨'@' :: mark ++ front, by simp, by simp⟩

/-- An attribute ends at the latest at the first closing parenthesis behind it. -/
theorem enumAttribute?_break (cs rest : List Char) :
    enumAttribute? (cs ++ ')' :: rest) = (enumAttribute? (cs ++ [')'])).map (· ++ rest) := by
  rw [enumAttribute?, enumAttribute?, Attribute.head?_break, Attribute.head?_break]
  cases Attribute.head? cs with
  | none => rfl
  | some found =>
    obtain ⟨name, behind⟩ := found
    simp only [Option.map_some, Option.bind_eq_bind, Option.bind_some]
    cases behind with
    | nil => rfl
    | cons d inner =>
      by_cases opens : d = '('
      next =>
        subst opens
        simp only [List.cons_append, List.dropWhile_append]
        cases inner.dropWhile (· ≠ ')') <;> simp
      next => simp [opens]

theorem unattributed_break (cs rest : List Char) :
    unattributed (cs ++ ')' :: rest) = unattributed (cs ++ [')']) ++ unattributed rest := by
  -- No attribute begins in front of the parenthesis and ends behind it.
  rw [unattributed, replaceMatches, replaceFrom_break
    (fun _ _ _ found => eq_append_of_enumAttribute? found) fun _ cs => enumAttribute?_break cs rest]
  exact congrArg _ (replaceFrom_before (fun _ _ _ => rfl) _ _ _ _)

theorem unattributed_append {front : List Char} (unmarked : '@' ∉ front) (rest : List Char) :
    unattributed (front ++ rest) = front ++ unattributed rest := by
  induction front with
  | nil => rfl
  | cons c front ih =>
    rw [List.mem_cons, not_or] at unmarked
    have none : enumAttribute? (c :: (front ++ rest)) = none := by
      rw [enumAttribute?, Attribute.head?_unmarked (Ne.symm unmarked.1)]
      rfl
    rw [List.cons_append, unattributed, replaceMatches, replaceFrom_cons none, List.cons_append,
      ← ih unmarked.2]
    exact congrArg _ (replaceFrom_before (fun _ _ _ => rfl) _ _ _ _)

theorem unattributed_eq_self {cs : List Char} (unmarked : '@' ∉ cs) : unattributed cs = cs := by
  have whole := unattributed_append unmarked []
  rwa [List.append_nil, show unattributed [] = [] from rfl, List.append_nil] at whole

theorem unattributed_found {cs rest : List Char} (found : enumAttribute? cs = some rest) :
    unattributed cs = ' ' :: unattributed rest := by
  obtain ⟨matched, held, rfl⟩ := eq_append_of_enumAttribute? found
  rw [unattributed, replaceMatches, replaceFrom_append held found]
  exact congrArg _ (replaceFrom_before (fun _ _ _ => rfl) _ _ _ _)

end SchemaAtlas.Blocks
