import SchemaAtlas.Proofs.Text.Nesting

/-!
Groups: an opening bracket, a text in which all is closed, and the closing bracket of the same
kind. The partner of a bracket is the end of the one group that the bracket begins.
-/

set_option autoImplicit false

namespace SchemaAtlas.Text

def IsGroup (cs : List Char) : Prop :=
  ∃ opener closer inside, closerOf? opener = some closer ∧ IsNested inside ∧
    cs = opener :: inside ++ [closer]

/-- What stands before the bracket that closes the outermost of some open groups. -/
inductive Closes : List Char → List Char → Prop
  | last {closer : Char} {inside : List Char} (nested : IsNested inside) : Closes [closer] inside
  | more {closer : Char} {outer inside rest : List Char} (nested : IsNested inside)
      (later : Closes outer rest) : Closes (closer :: outer) (inside ++ closer :: rest)

/-- The same for a text that a scan enters in a mode: a string that is open is closed first. -/
def ClosesFrom (pending : List Char) : Mode → List Char → Prop
  | .code, cs => Closes pending cs
  | .quoted quote, cs => ∃ inside rest, IsQuotable quote inside ∧ Closes pending rest ∧
      cs = inside ++ quote :: rest
  | .escaped quote, cs => ∃ c inside rest, IsQuotable quote inside ∧ Closes pending rest ∧
      cs = c :: (inside ++ quote :: rest)

theorem Closes.prepend {pending front cs : List Char} (nested : IsNested front)
    (closes : Closes pending cs) : Closes pending (front ++ cs) := by
  cases closes with
  | last inside => exact .last (nested.append inside)
  | more inside later =>
    rw [← List.append_assoc]
    exact .more (nested.append inside) later

theorem Closes.of_opener {opener closer : Char} {pending cs : List Char} (held : pending ≠ [])
    (pair : closerOf? opener = some closer) (closes : Closes (closer :: pending) cs) :
    Closes pending (opener :: cs) := by
  cases closes with
  | last => exact absurd rfl held
  | @more _ _ inside rest nested later =>
    have group : IsNested (opener :: inside ++ [closer]) := .group pair nested .nil
    simpa using later.prepend group

theorem ClosesFrom.string {mode : Mode} {c : Char} {pending cs : List Char}
    (hidden : ¬ (mode = .code ∧ isQuote c = false)) (closes : ClosesFrom pending (mode.next c) cs) :
    ClosesFrom pending mode (c :: cs) := by
  cases mode with
  | code =>
    -- The string that begins here ends before the next bracket that counts.
    have quotes : isQuote c = true := by simpa using hidden
    rw [Mode.next, if_pos quotes] at closes
    obtain ⟨inside, rest, quotable, later, rfl⟩ := closes
    have whole : IsNested (c :: inside ++ c :: []) := .string quotes quotable .nil
    simpa [ClosesFrom] using later.prepend whole
  | quoted quote =>
    by_cases escape : c = '\\'
    next =>
      rw [Mode.next, if_pos escape] at closes
      obtain ⟨d, inside, rest, quotable, later, rfl⟩ := closes
      exact ⟨'\\' :: d :: inside, rest, .escaped quotable, later, by simp [escape]⟩
    next =>
      by_cases ends : c = quote
      next =>
        rw [Mode.next, if_neg escape, if_pos ends] at closes
        exact ⟨[], cs, .nil, closes, by simp [ends]⟩
      next =>
        rw [Mode.next, if_neg escape, if_neg ends] at closes
        obtain ⟨inside, rest, quotable, later, rfl⟩ := closes
        exact ⟨c :: inside, rest, .plain ends escape quotable, later, rfl⟩
  | escaped quote =>
    obtain ⟨inside, rest, quotable, later, rfl⟩ := closes
    exact ⟨c, inside, rest, quotable, later, rfl⟩

theorem closesFrom_of_closeOffset? {pending cs : List Char} {mode : Mode} {n : Nat}
    (held : pending ≠ []) (found : closeOffset? pending (outline mode cs) = some n) :
    ClosesFrom pending mode (cs.take n) := by
  -- Each character may change both the mode and the brackets that are still to come.
  induction cs generalizing pending mode n with
  | nil => cases found
  | cons d cs ih =>
    rw [outline, closeOffset?_cons] at found
    by_cases plain : mode = .code ∧ isQuote d = false
    next =>
      obtain ⟨rfl, unquoted⟩ := plain
      rw [if_pos ⟨rfl, unquoted⟩, Mode.next_code unquoted] at found
      split at found
      next => cases found
      next ends =>
        cases found
        obtain ⟨c, -, rfl⟩ := closeStep_ends ends
        exact .last .nil
      next later goes =>
        obtain ⟨k, inside, rfl⟩ := Option.map_eq_some_iff.mp found
        have rest : Closes later (cs.take k) := ih (closeStep_pending held goes).1 inside
        rw [List.take_succ_cons]
        -- The bracket opens a group, ends the innermost one, or is none at all.
        simp only [closeStep] at goes
        split at goes
        next closer pair =>
          cases goes
          exact rest.of_opener held pair
        next opens =>
          split at goes
          next =>
            split at goes
            next => cases goes
            next => split at goes <;> cases goes
            next =>
              split at goes
              next same =>
                cases goes
                subst same
                exact .more .nil rest
              next => cases goes
          next closes =>
            cases goes
            have plain : isPlain d = true := by simp_all [isPlain, isOpener]
            exact rest.prepend (.plain plain .nil)
    next =>
      -- Characters of a string do not count as brackets.
      rw [if_neg plain] at found
      simp only [closeStep] at found
      obtain ⟨k, inside, rfl⟩ := Option.map_eq_some_iff.mp found
      exact .string plain (ih held inside)

theorem closeOffset?_eq_some_iff {opener closer : Char} (pair : closerOf? opener = some closer)
    {cs : List Char} {n : Nat} : closeOffset? [closer] (outline .code cs) = some n ↔
      ∃ inside rest, IsNested inside ∧ cs = inside ++ closer :: rest ∧ inside.length = n := by
  constructor
  next =>
    intro found
    have closes : Closes [closer] (cs.take n) :=
      closesFrom_of_closeOffset? (List.cons_ne_nil _ _) found
    obtain ⟨c, outermost, split⟩ := eq_append_of_closeOffset? (List.cons_ne_nil _ _) found
    cases outermost
    -- The search has passed the front of the text, and the bracket it stopped at follows.
    have lengths := congrArg List.length split
    simp only [List.length_append, List.length_cons, List.length_take, List.length_drop] at lengths
    have within : n < cs.length := by omega
    refine ⟨cs.take n, cs.drop (n + 1), ?_, split, by rw [List.length_take]; omega⟩
    generalize cs.take n = inside at closes
    -- With only one bracket to come, nothing is left but a closed text.
    cases closes with
    | last nested => exact nested
    | more _ later => cases later
  next =>
    rintro ⟨inside, rest, nested, rfl, rfl⟩
    exact nested.closeOffset?_append pair rest

theorem closeGroup?_eq_some_iff {opener : Char} {cs inside rest : List Char} :
    closeGroup? opener cs = some (inside, rest) ↔
      ∃ closer, closerOf? opener = some closer ∧ IsNested inside ∧ cs = inside ++ closer :: rest := by
  constructor
  next =>
    intro found
    simp only [closeGroup?, Option.bind_eq_bind, Option.bind_eq_some_iff] at found
    obtain ⟨closer, pair, n, offset, same⟩ := found
    obtain ⟨inside, rest, nested, rfl, rfl⟩ := (closeOffset?_eq_some_iff pair).mp offset
    cases same
    exact ⟨closer, pair, by simpa using nested, by simp⟩
  next =>
    rintro ⟨closer, pair, nested, rfl⟩
    exact nested.closeGroup?_append pair rest

section Partner

variable {cs : List Char} {i : Nat} {opener closer : Char}

theorem partner?_eq (stands : cs[i]? = some opener) (pair : closerOf? opener = some closer) :
    partner? cs i = .ok ((closeOffset? [closer] (outline .code (cs.drop (i + 1)))).map
      fun n : Nat => (i + 1 + n : Int)) := by
  have front : ¬ (i : Int) < 0 := by omega
  simp only [partner?, front, if_false, Int.toNat_natCast, stands, Option.bind_some, pair,
    List.append_nil]
  cases closeOffset? [closer] (outline .code (cs.drop (i + 1))) <;> rfl

/-- The text from one index to another, both inclusive. -/
def slice (cs : List Char) (i j : Nat) : List Char := (cs.drop i).take (j + 1 - i)

theorem isGroup_slice_iff (stands : cs[i]? = some opener) (pair : closerOf? opener = some closer)
    {j : Nat} (within : j < cs.length) (behind : i ≤ j) :
    IsGroup (slice cs i j) ↔
      ∃ inside rest, IsNested inside ∧ cs.drop (i + 1) = inside ++ closer :: rest ∧
        i + 1 + inside.length = j := by
  obtain ⟨inText, rfl⟩ := List.getElem?_eq_some_iff.mp stands
  have front : slice cs i j = cs[i] :: (cs.drop (i + 1)).take (j - i) := by
    rw [slice, List.drop_eq_getElem_cons inText, Nat.sub_add_comm behind, List.take_succ_cons]
  rw [front]
  constructor
  next =>
    rintro ⟨first, last, inside, pair', nested, same⟩
    obtain ⟨rfl, taken⟩ := List.cons.inj same
    cases pair.symm.trans pair'
    change (cs.drop (i + 1)).take (j - i) = inside ++ [closer] at taken
    have length := congrArg List.length taken
    simp only [List.length_take, List.length_drop, List.length_append, List.length_singleton]
      at length
    refine ⟨inside, cs.drop (j + 1), nested, ?_, by omega⟩
    calc cs.drop (i + 1)
      _ = (cs.drop (i + 1)).take (j - i) ++ (cs.drop (i + 1)).drop (j - i) :=
        (List.take_append_drop _ _).symm
      _ = inside ++ closer :: cs.drop (j + 1) := by
        rw [taken, List.drop_drop, show i + 1 + (j - i) = j + 1 by omega]
        simp
  next =>
    rintro ⟨inside, rest, nested, split, rfl⟩
    refine ⟨cs[i], closer, inside, pair, nested, ?_⟩
    have long : i + 1 + inside.length - i = (inside ++ [closer]).length := by
      rw [List.length_append, List.length_singleton]
      omega
    rw [long, split, List.append_cons inside closer rest, List.take_left, List.cons_append]

/-- The partner of an opening bracket stands where the group ends that begins there; a bracket that
begins no group has none. -/
theorem partner?_iff_isGroup (stands : cs[i]? = some opener) (opens : isOpener opener = true) :
    (∀ j : Nat, partner? cs i = .ok (some (j : Int)) ↔
      i ≤ j ∧ j < cs.length ∧ IsGroup (slice cs i j)) ∧
    (partner? cs i = .ok none ↔ ∀ j < cs.length, i ≤ j → ¬ IsGroup (slice cs i j)) := by
  obtain ⟨closer, pair⟩ := Option.isSome_iff_exists.mp opens
  rw [partner?_eq stands pair]
  have found (j : Nat) :
      (closeOffset? [closer] (outline .code (cs.drop (i + 1)))).map (fun n : Nat => (i + 1 + n : Int)) =
        some (j : Int) ↔ i ≤ j ∧ j < cs.length ∧ IsGroup (slice cs i j) := by
    rw [Option.map_eq_some_iff]
    constructor
    next =>
      rintro ⟨n, offset, place⟩
      obtain ⟨inside, rest, nested, split, rfl⟩ := (closeOffset?_eq_some_iff pair).mp offset
      have length := congrArg List.length split
      rw [List.length_drop, List.length_append, List.length_cons] at length
      have within : j < cs.length := by omega
      have behind : i ≤ j := by omega
      exact ⟨behind, within, (isGroup_slice_iff stands pair within behind).mpr
        ⟨inside, rest, nested, split, by omega⟩⟩
    next =>
      rintro ⟨behind, within, group⟩
      obtain ⟨inside, rest, nested, split, place⟩ :=
        (isGroup_slice_iff stands pair within behind).mp group
      exact ⟨inside.length, (closeOffset?_eq_some_iff pair).mpr ⟨inside, rest, nested, split, rfl⟩,
        by omega⟩
  constructor
  next => simpa using found
  next =>
    constructor
    next =>
      intro none j within behind group
      have some := (found j).mpr ⟨behind, within, group⟩
      rw [Except.ok.inj none] at some
      cases some
    next =>
      intro nowhere
      cases offset : closeOffset? [closer] (outline .code (cs.drop (i + 1))) with
      | none => rfl
      | some n =>
        obtain ⟨behind, within, group⟩ := (found (i + 1 + n)).mp (by rw [offset]; simp)
        exact absurd group (nowhere _ within behind)

theorem partner?_iff_isGroup_string :
    ("x(')', [\"\\\"\"])".toList)[1]? = some '(' ∧ isOpener '(' = true ∧
      partner? "x(')', [\"\\\"\"])".toList 1 = .ok (some 13) ∧
      IsGroup (slice "x(')', [\"\\\"\"])".toList 1 13) := by
  have stands : ("x(')', [\"\\\"\"])".toList)[1]? = some '(' := by decide
  have found : partner? "x(')', [\"\\\"\"])".toList 1 = .ok (some 13) := rfl
  have group := ((partner?_iff_isGroup stands (by decide)).1 13).mp found
  exact ⟨stands, by decide, found, group.2.2⟩

end Partner

end SchemaAtlas.Text
