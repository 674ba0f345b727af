import SchemaAtlas.Proofs.Text.Runs

/-!
Matches of a text read off from its front, and texts without a match.
-/

set_option autoImplicit false

namespace SchemaAtlas.Text

variable {α : Type} {here : Option Char → List Char → Option (α × List Char)}

theorem findMatch_of_front {α : Type} {here : Option Char → List Char → Option α}
    {before : Option Char} {cs : List Char} (found : (here before cs).isSome = true) :
    (findMatch here before cs).isSome = true := by
  cases cs with
  | nil => exact found
  | cons c cs =>
    obtain ⟨a, same⟩ := Option.isSome_iff_exists.mp found
    simp [findMatch, same]

theorem findMatch_cons_eq_none {α : Type} {here : Option Char → List Char → Option α}
    {before : Option Char} {c : Char} {cs : List Char} :
    findMatch here before (c :: cs) = none ↔
      here before (c :: cs) = none ∧ findMatch here (some c) cs = none := by
  rw [findMatch]
  cases here before (c :: cs) <;> simp

theorem findMatch_isSome_iff {α : Type} {here : List Char → Option α} {before : Option Char}
    {cs : List Char} : (findMatch (fun _ => here) before cs).isSome = true ↔
      ∃ rest, rest <:+ cs ∧ (here rest).isSome = true := by
  induction cs generalizing before with
  | nil => simp [findMatch]
  | cons c cs ih =>
    cases found : here (c :: cs) with
    | none => simp [findMatch, found, ih, List.suffix_cons_iff, or_and_right, exists_or]
    | some a => simpa [findMatch, found] using ⟨c :: cs, List.suffix_refl _, by simp [found]⟩

theorem findMatch_behind {α : Type} {here : Option Char → List Char → Option α}
    {front rest : List Char} {before : Option Char}
    (found : (findMatch here (front.getLast?.or before) rest).isSome = true) :
    (findMatch here before (front ++ rest)).isSome = true := by
  induction front generalizing before with
  | nil => exact found
  | cons c front ih =>
    have later : (findMatch here (some c) (front ++ rest)).isSome = true := by
      refine ih ?_
      rw [List.getLast?_cons] at found
      cases last : front.getLast? <;> simpa [last] using found
    rw [List.cons_append, findMatch]
    cases here before (c :: (front ++ rest)) with
    | some a => rfl
    | none => exact later

theorem front_of_findMatch {α : Type} {here : Option Char → List Char → Option α}
    {before : Option Char} {cs : List Char} (none : findMatch here before cs = none) :
    here before cs = Option.none := by
  by_contra found
  have some := findMatch_of_front (Option.isSome_iff_ne_none.mpr found)
  simp [none] at some

theorem behind_of_findMatch {α : Type} {here : Option Char → List Char → Option α}
    {before : Option Char} {front rest : List Char}
    (none : findMatch here before (front ++ rest) = none) :
    findMatch here (front.getLast?.or before) rest = Option.none := by
  by_contra found
  have some := findMatch_behind (Option.isSome_iff_ne_none.mpr found)
  simp [none] at some

theorem findMatch_append {α : Type} {here : Option Char → List Char → Option α} (rest : List Char)
    (each : ∀ before cs, (here before cs).isSome = true → (here before (cs ++ rest)).isSome = true)
    {before : Option Char} {cs : List Char} (found : (findMatch here before cs).isSome = true) :
    (findMatch here before (cs ++ rest)).isSome = true := by
  induction cs generalizing before with
  | nil =>
    have front := each before [] found
    rw [List.nil_append] at front ⊢
    cases rest with
    | nil => exact front
    | cons c rest =>
      obtain ⟨a, same⟩ := Option.isSome_iff_exists.mp front
      simp [findMatch, same]
  | cons c cs ih =>
    rw [List.cons_append, findMatch]
    cases front : here before (c :: (cs ++ rest)) with
    | some a => rfl
    | none =>
      have absent : here before (c :: cs) = none := by
        by_contra present
        have longer := each before (c :: cs) (Option.isSome_iff_ne_none.mpr present)
        rw [List.cons_append, front] at longer
        cases longer
      rw [findMatch, absent] at found
      exact ih found

theorem findMatch_imp {α β : Type} {here : Option Char → List Char → Option α}
    {there : Option Char → List Char → Option β}
    (each : ∀ before cs, (here before cs).isSome = true → (there before cs).isSome = true)
    {before : Option Char} {cs : List Char} (found : (findMatch here before cs).isSome = true) :
    (findMatch there before cs).isSome = true := by
  induction cs generalizing before with
  | nil => exact each before [] found
  | cons c cs ih =>
    rw [findMatch] at found ⊢
    cases matched : here before (c :: cs) with
    | some a =>
      have other := each before (c :: cs) (by rw [matched]; rfl)
      cases same : there before (c :: cs) with
      | some b => rfl
      | none => simp [same] at other
    | none =>
      rw [matched] at found
      cases there before (c :: cs) with
      | some b => rfl
      | none => exact ih found

theorem contains_iff {literal cs : List Char} : contains literal cs = true ↔ literal <:+: cs := by
  rw [contains, hasMatch, findMatch_isSome_iff]
  constructor
  · rintro ⟨rest, behind, front⟩
    exact (beginsWith_iff.mp front).isInfix.trans behind.isInfix
  · rintro ⟨front, rest, rfl⟩
    refine ⟨literal ++ rest, ?_, beginsWith_iff.mpr (List.prefix_append _ _)⟩
    rw [List.append_assoc]
    exact List.suffix_append _ _

theorem findMatch_before {α : Type} {here : List Char → Option α} (before other : Option Char)
    (cs : List Char) : findMatch (fun _ => here) before cs = findMatch (fun _ => here) other cs := by
  cases cs with
  | nil => rfl
  | cons c cs => rfl

/-- A stretch of a text in front of which nothing is found. -/
theorem findMatch_quiet {α : Type} {here : List Char → Option α} {quiet rest : List Char}
    (before : Option Char)
    (none : ∀ c tail, c :: tail <:+ quiet → here (c :: tail ++ rest) = none) :
    findMatch (fun _ => here) before (quiet ++ rest) = findMatch (fun _ => here) before rest := by
  induction quiet generalizing before with
  | nil => rfl
  | cons c quiet ih =>
    have first : here (c :: (quiet ++ rest)) = Option.none := none c quiet (List.suffix_refl _)
    rw [List.cons_append, findMatch]
    simp only [first]
    rw [ih _ fun d tail suffix => none d tail (suffix.trans (List.suffix_cons c quiet)),
      findMatch_before]

/-- A text that lacks a character is found on one side of it or the other. -/
theorem infix_break {word as bs : List Char} {c : Char} (absent : c ∉ word) :
    word <:+: as ++ c :: bs ↔ word <:+: as ∨ word <:+: bs := by
  constructor
  · rintro ⟨front, behind, same⟩
    rcases List.append_eq_append_iff.mp same with ⟨middle, rfl, -⟩ | ⟨middle, whole, tail⟩
    · exact .inl ⟨front, middle, rfl⟩
    · cases middle with
      | nil =>
        rw [List.append_nil] at whole
        exact .inl ⟨front, [], by rw [List.append_nil, whole]⟩
      | cons d middle =>
        obtain ⟨rfl, rfl⟩ := List.cons.inj tail
        rcases List.append_eq_append_iff.mp whole with ⟨between, -, rfl⟩ | ⟨between, rfl, inside⟩
        · exact absurd (List.mem_append_right _ (.head _)) absent
        · cases between with
          | nil => exact absurd (by rw [← List.nil_append word, ← inside]; exact .head _) absent
          | cons e between =>
            obtain ⟨rfl, rfl⟩ := List.cons.inj inside
            exact .inr ⟨between, behind, rfl⟩
  · rintro (left | right)
    · exact left.trans (List.prefix_append _ _).isInfix
    · exact right.trans (((List.suffix_cons c bs).trans (List.suffix_append as _)).isInfix)

/-- Around the only mark of a text stands what a text with that mark has around it. -/
theorem infix_around {word rest as bs : List Char} {c : Char} (before : c ∉ as) (behind : c ∉ bs) :
    word ++ c :: rest <:+: as ++ c :: bs ↔ word <:+ as ∧ rest <+: bs := by
  constructor
  · rintro ⟨front, tail, same⟩
    have split : as ++ c :: bs = (front ++ word) ++ c :: (rest ++ tail) := by simpa using same.symm
    obtain ⟨first, -, second⟩ := (List.append_cons_inj_of_notMem before behind).mp split
    exact ⟨⟨front, first.symm⟩, ⟨tail, second.symm⟩⟩
  · rintro ⟨⟨front, rfl⟩, ⟨tail, rfl⟩⟩
    exact ⟨front, tail, by simp⟩

theorem matchesFrom_cons {before : Option Char} {c : Char} {cs : List Char}
    (none : here before (c :: cs) = none) :
    matchesFrom here 0 before (c :: cs) = matchesFrom here 0 (some c) cs := by
  rw [matchesFrom]
  simp only [none]

theorem matchesFrom_skip (skipped : List Char) (before : Option Char) (rest : List Char) :
    matchesFrom here skipped.length before (skipped ++ rest) =
      matchesFrom here 0 (skipped.getLast?.or before) rest := by
  induction skipped generalizing before with
  | nil => rfl
  | cons c skipped ih =>
    rw [List.cons_append, List.length_cons, matchesFrom, ih, List.getLast?_cons]
    cases skipped.getLast? <;> rfl

/-- A match at the front, and those behind it. -/
theorem matchesFrom_append {before : Option Char} {matched : List Char} {a : α} {rest : List Char}
    (held : matched ≠ []) (found : here before (matched ++ rest) = some (a, rest)) :
    matchesFrom here 0 before (matched ++ rest) =
      a :: matchesFrom here 0 matched.getLast? rest := by
  cases matched with
  | nil => exact absurd rfl held
  | cons c matched =>
    have within : (matched ++ rest).length - rest.length = matched.length := by simp
    rw [List.cons_append] at found ⊢
    rw [matchesFrom]
    simp only [found]
    rw [within, matchesFrom_skip, List.getLast?_cons]
    cases matched.getLast? <;> rfl

theorem matchesFrom_before {here : List Char → Option (α × List Char)} (skip : Nat)
    (before other : Option Char) (cs : List Char) :
    matchesFrom (fun _ => here) skip before cs = matchesFrom (fun _ => here) skip other cs := by
  cases cs with
  | nil => rfl
  | cons c cs => cases skip <;> rfl

/-- A stretch of a text in which no match begins. -/
theorem matchesFrom_quiet {quiet rest : List Char} (before : Option Char)
    (none : ∀ before c tail, c :: tail <:+ quiet → here before (c :: tail ++ rest) = none) :
    matchesFrom here 0 before (quiet ++ rest) =
      matchesFrom here 0 (quiet.getLast?.or before) rest := by
  induction quiet generalizing before with
  | nil => rfl
  | cons c quiet ih =>
    have here : here before (c :: (quiet ++ rest)) = Option.none :=
      none before c quiet (List.suffix_refl _)
    rw [List.cons_append, matchesFrom_cons here,
      ih _ fun before d tail suffix => none before d tail (suffix.trans (List.suffix_cons c quiet)),
      List.getLast?_cons]
    cases quiet.getLast? <;> rfl

theorem matchesFrom_eq_nil {cs : List Char} (before : Option Char)
    (none : ∀ before rest, rest <:+ cs → here before rest = none) :
    matchesFrom here 0 before cs = [] := by
  have quiet : matchesFrom here 0 before (cs ++ []) = matchesFrom here 0 (cs.getLast?.or before) [] :=
    matchesFrom_quiet before fun before c tail suffix => by
      rw [List.append_nil]
      exact none before _ suffix
  rw [List.append_nil] at quiet
  exact quiet

theorem matchesFrom_eq_nil_of_findMatch {α : Type}
    {here : Option Char → List Char → Option (α × List Char)} {before : Option Char}
    {cs : List Char} (none : findMatch here before cs = none) : matchesFrom here 0 before cs = [] := by
  induction cs generalizing before with
  | nil => rfl
  | cons c cs ih =>
    obtain ⟨front, later⟩ := findMatch_cons_eq_none.mp none
    rw [matchesFrom_cons front, ih later]

/-- The matches of a text are those of its front and those of the rest if a match that begins in the
front ends there. Only matches that are met have to. -/
theorem matchesFrom_apart {good : α → Prop} {front rest : List Char}
    (within : ∀ before cs a behind, here before cs = some (a, behind) →
      ∃ matched, matched ≠ [] ∧ cs = matched ++ behind)
    (apart : ∀ before cs, cs ≠ [] → cs <:+ front →
      (∀ a behind, here before cs = some (a, behind) → good a) →
      here before (cs ++ rest) = (here before cs).map fun found => (found.1, found.2 ++ rest))
    (before : Option Char) (all : ∀ a ∈ matchesFrom here 0 before front, good a) :
    matchesFrom here 0 before (front ++ rest) =
      matchesFrom here 0 before front ++ matchesFrom here 0 (front.getLast?.or before) rest := by
  -- A match is leapt over, so the induction is on the length of what is left of the front.
  generalize size : front.length = n
  induction n using Nat.strong_induction_on generalizing front before with
  | _ n ih =>
    cases front with
    | nil => rfl
    | cons c front =>
      cases found : here before (c :: front) with
      | none =>
        have longer := apart before (c :: front) (by simp) (List.suffix_refl _) (by simp [found])
        rw [found, Option.map_none] at longer
        rw [matchesFrom_cons found] at all ⊢
        rw [List.cons_append] at longer ⊢
        rw [matchesFrom_cons longer, ih front.length (by simp [← size])
          (fun before cs held suffix => apart before cs held (suffix.trans (List.suffix_cons _ _)))
          _ all rfl, List.getLast?_cons]
        cases front.getLast? <;> rfl
      | some found' =>
        obtain ⟨a, behind⟩ := found'
        obtain ⟨matched, held, whole⟩ := within before _ a behind found
        rw [whole] at found all apart ⊢
        rw [matchesFrom_append held found] at all ⊢
        have longer := apart before _ (by simp [held]) (List.suffix_refl _) fun b other again => by
          rw [found] at again
          cases again
          exact all a (.head _)
        rw [found, Option.map_some, List.append_assoc] at longer
        have shorter : behind.length < n := by
          have some := List.length_pos_iff.mpr held
          rw [← size, whole, List.length_append]
          omega
        rw [List.append_assoc, matchesFrom_append held longer, ih behind.length shorter
          (fun before cs held suffix => apart before cs held (suffix.trans (List.suffix_append _ _)))
          _ (fun b member => all b (.tail _ member)) rfl, List.cons_append]
        have last : behind.getLast?.or matched.getLast? = (matched ++ behind).getLast?.or before := by
          obtain ⟨d, same⟩ := Option.isSome_iff_exists.mp (List.getLast?_isSome.mpr held)
          rw [List.getLast?_append, same]
          cases behind.getLast? <;> rfl
        rw [last]

/-- A match begins somewhere in the text. -/
theorem exists_suffix_of_mem_matchesFrom {a : α} (skip : Nat) (before : Option Char)
    {cs : List Char} (member : a ∈ matchesFrom here skip before cs) :
    ∃ before rest behind, rest <:+ cs ∧ here before rest = some (a, behind) := by
  fun_induction matchesFrom here skip before cs with
  | case1 => cases member
  | case2 before c cs skip ih =>
    obtain ⟨before, rest, behind, within, found⟩ := ih member
    exact ⟨before, rest, behind, within.trans (List.suffix_cons c cs), found⟩
  | case3 before c cs first behind found ih =>
    rcases List.mem_cons.mp member with rfl | later
    · exact ⟨before, c :: cs, behind, List.suffix_refl _, found⟩
    · obtain ⟨before, rest, behind, within, found⟩ := ih later
      exact ⟨before, rest, behind, within.trans (List.suffix_cons c cs), found⟩
  | case4 before c cs none ih =>
    obtain ⟨before, rest, behind, within, found⟩ := ih member
    exact ⟨before, rest, behind, within.trans (List.suffix_cons c cs), found⟩

section Replaced

variable {replacement : List Char} {here : Option Char → List Char → Option (List Char)}

theorem replaceFrom_cons {before : Option Char} {c : Char} {cs : List Char}
    (none : here before (c :: cs) = none) :
    replaceFrom replacement here 0 before (c :: cs) =
      c :: replaceFrom replacement here 0 (some c) cs := by
  rw [replaceFrom]
  simp only [none]

theorem replaceFrom_skip (skipped : List Char) (before : Option Char) (rest : List Char) :
    replaceFrom replacement here skipped.length before (skipped ++ rest) =
      replaceFrom replacement here 0 (skipped.getLast?.or before) rest := by
  induction skipped generalizing before with
  | nil => rfl
  | cons c skipped ih =>
    rw [List.cons_append, List.length_cons, replaceFrom, ih, List.getLast?_cons]
    cases skipped.getLast? <;> rfl

/-- A match at the front is replaced, and then those behind it. -/
theorem replaceFrom_append {before : Option Char} {matched rest : List Char}
    (held : matched ≠ []) (found : here before (matched ++ rest) = some rest) :
    replaceFrom replacement here 0 before (matched ++ rest) =
      replacement ++ replaceFrom replacement here 0 matched.getLast? rest := by
  cases matched with
  | nil => exact absurd rfl held
  | cons c matched =>
    have within : (matched ++ rest).length - rest.length = matched.length := by simp
    rw [List.cons_append] at found ⊢
    rw [replaceFrom]
    simp only [found]
    rw [within, replaceFrom_skip, List.getLast?_cons]
    cases matched.getLast? <;> rfl

theorem replaceFrom_before (blind : ∀ before before' cs, here before cs = here before' cs)
    (skip : Nat) (before before' : Option Char) (cs : List Char) :
    replaceFrom replacement here skip before cs = replaceFrom replacement here skip before' cs := by
  cases cs with
  | nil => rfl
  | cons c cs => cases skip <;> simp only [replaceFrom, blind before before']

/-- The matches in front of a character and those behind it are replaced apart if none reaches beyond
the character. -/
theorem replaceFrom_break {c : Char} {rest : List Char}
    (within : ∀ before cs behind, here before cs = some behind →
      ∃ matched, matched ≠ [] ∧ cs = matched ++ behind)
    (breaks : ∀ before cs, here before (cs ++ c :: rest) =
      (here before (cs ++ [c])).map (· ++ rest)) (before : Option Char) (cs : List Char) :
    replaceFrom replacement here 0 before (cs ++ c :: rest) =
      replaceFrom replacement here 0 before (cs ++ [c]) ++
        replaceFrom replacement here 0 (some c) rest := by
  -- A match is leapt over, so the induction is on the length of what is left.
  generalize size : cs.length = n
  induction n using Nat.strong_induction_on generalizing before cs with
  | _ n ih =>
    have longer := breaks before cs
    cases found : here before (cs ++ [c]) with
    | none =>
      rw [found, Option.map_none] at longer
      cases cs with
      | nil =>
        rw [List.nil_append] at longer found
        rw [List.nil_append, List.nil_append, replaceFrom_cons longer, replaceFrom_cons found]
        rfl
      | cons d cs =>
        rw [List.cons_append] at longer found
        rw [List.cons_append, List.cons_append, replaceFrom_cons longer, replaceFrom_cons found,
          ih cs.length (by simp [← size]) _ _ rfl, List.cons_append]
    | some behind =>
      obtain ⟨matched, held, whole⟩ := within before _ behind found
      have split : cs ++ c :: rest = matched ++ (behind ++ rest) := by
        rw [List.append_cons, whole, List.append_assoc]
      rw [found, Option.map_some, split] at longer
      rw [whole] at found
      rw [split, whole, replaceFrom_append held longer, replaceFrom_append held found]
      rcases List.eq_nil_or_concat' behind with rfl | ⟨front, last, rfl⟩
      next =>
        have last : matched.getLast? = some c := by
          rw [List.append_nil] at whole
          rw [← whole, List.getLast?_concat]
        rw [last, List.nil_append, replaceFrom, List.append_nil]
      next =>
        obtain ⟨shorter, rfl⟩ : cs = matched ++ front ∧ c = last := by
          rw [← List.append_assoc] at whole
          simpa using List.append_inj' whole rfl
        have smaller : front.length < n := by
          have some := List.length_pos_iff.mpr held
          rw [← size, shorter, List.length_append]
          omega
        rw [List.append_assoc, List.singleton_append, ih front.length smaller _ _ rfl,
          List.append_assoc]

end Replaced

end SchemaAtlas.Text
