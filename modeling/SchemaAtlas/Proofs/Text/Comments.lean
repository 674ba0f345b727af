import SchemaAtlas.Proofs.Text.Closed

/-!
Removing comments: none is left, so that nothing is removed a second time, and a comment between
two texts does not matter for either of them.
-/

set_option autoImplicit false

namespace SchemaAtlas.Text

theorem head?_stripFrom {c : Char} {cs : List Char} (solid : c ≠ '/') :
    (stripFrom (.text .code) (c :: cs)).head? = some c := by
  rw [stripFrom_text fun _ slash => absurd slash solid]
  rfl

theorem uncommented_stripFrom (region : Region) (cs : List Char) :
    Uncommented region.mode (stripFrom region cs) := by
  fun_induction stripFrom region cs with
  | case1 => trivial
  | case2 cs ih => exact ih
  | case3 cs ih => exact ih
  | case4 mode c cs line block ih =>
    refine ⟨?_, ih⟩
    -- Only what follows a slash could begin a comment with it, and that is no comment mark.
    rintro ⟨inCode, rfl, begins⟩
    obtain rfl : mode = .code := inCode
    cases cs with
    | nil => simp [stripFrom] at begins
    | cons d cs =>
      have single : d ≠ '/' := fun same => line cs rfl rfl (by rw [same])
      have starless : d ≠ '*' := fun same => block cs rfl rfl (by rw [same])
      rw [show Mode.code.next '/' = .code from rfl, head?_stripFrom single] at begins
      simp [single, starless] at begins
  | case5 cs ih => exact ⟨by simp, ih⟩
  | case6 c cs _ ih => exact ih
  | case7 cs ih => exact ih
  | case8 cs _ ih => exact ⟨by simp, ih⟩
  | case9 c cs _ _ ih => exact ih

/-- Without comments a scan for them stands where a scan for strings does. -/
theorem Uncommented.run {mode : Mode} {cs : List Char} (uncommented : Uncommented mode cs) :
    (Region.text mode).run cs = .text (mode.run cs) := by
  induction cs generalizing mode with
  | nil => cases mode <;> rfl
  | cons c cs ih =>
    obtain ⟨begins, later⟩ := uncommented
    rw [Region.run.eq_4, ih later, Mode.run_cons]
    · rintro rest ⟨⟩ rfl rfl
      exact begins ⟨rfl, rfl, .inl rfl⟩
    · rintro rest ⟨⟩ rfl rfl
      exact begins ⟨rfl, rfl, .inr rfl⟩

theorem Uncommented.unmarked {mode : Mode} {cs : List Char} (uncommented : Uncommented mode cs)
    {mark : Char} (isMark : mark = '/' ∨ mark = '*') :
    ¬ [some '/', some mark] <:+: outline mode cs := by
  induction cs generalizing mode with
  | nil => simp [outline]
  | cons c cs ih =>
    obtain ⟨begins, later⟩ := uncommented
    rw [outline, List.infix_cons_iff]
    rintro (front | behind)
    next =>
      obtain ⟨here, next⟩ := List.cons_prefix_cons.mp front
      split at here
      next plain =>
        cases here
        -- The slash stands in code, so that the mark behind it would begin a comment.
        cases cs with
        | nil => simp [outline] at next
        | cons d cs =>
          rw [outline] at next
          have second := (List.cons_prefix_cons.mp next).1
          split at second
          next =>
            cases second
            exact begins ⟨plain.1, rfl, by simpa using isMark⟩
          next => cases second
      next => cases here
    next => exact ih later behind

theorem uncommented_iff {mode : Mode} {cs : List Char} : Uncommented mode cs ↔
    ¬ [some '/', some '/'] <:+: outline mode cs ∧ ¬ [some '/', some '*'] <:+: outline mode cs := by
  refine ⟨fun none => ⟨none.unmarked (.inl rfl), none.unmarked (.inr rfl)⟩, fun unmarked => ?_⟩
  induction cs generalizing mode with
  | nil => trivial
  | cons c cs ih =>
    rw [outline, List.infix_cons_iff, List.infix_cons_iff, not_or, not_or] at unmarked
    obtain ⟨⟨line, noLine⟩, block, noBlock⟩ := unmarked
    refine ⟨?_, ih ⟨noLine, noBlock⟩⟩
    rintro ⟨rfl, rfl, begins⟩
    -- Both characters of a comment mark stand in code, one behind the other.
    cases cs with
    | nil => simp at begins
    | cons d cs =>
      rw [List.head?_cons, Option.some.injEq, Option.some.injEq] at begins
      rcases begins with rfl | rfl
      · exact line ⟨_, rfl⟩
      · exact block ⟨_, rfl⟩

theorem stripFrom_append_of_run {region : Region} {cs : List Char} {mode : Mode}
    (ends : region.run cs = .text mode) (last : cs.getLast? ≠ some '/') (rest : List Char) :
    stripFrom region (cs ++ rest) = stripFrom region cs ++ stripFrom (.text mode) rest := by
  have tail {c : Char} {cs : List Char} (last : (c :: cs).getLast? ≠ some '/') :
      cs.getLast? ≠ some '/' := by
    intro slash
    rw [List.getLast?_cons, slash] at last
    exact last rfl
  -- No mark reaches over the end of the front: in code that is the last slash, in a comment the end
  -- of the comment, which the front holds whole.
  fun_induction Region.run region cs with
  | case1 region => cases ends; rw [stripFrom_nil, List.nil_append, List.nil_append]
  | case2 cs ih => exact ih ends (tail (tail last))
  | case3 cs ih => exact ih ends (tail (tail last))
  | case4 mode' c cs line block ih =>
    rw [List.cons_append, stripFrom_text, stripFrom_text, ih ends (tail last), List.cons_append]
    · intro inCode slash
      constructor <;> intro second <;> obtain ⟨more, rfl⟩ := List.head?_eq_some_iff.mp second
      · exact line more (by rw [inCode]) slash rfl
      · exact block more (by rw [inCode]) slash rfl
    · intro inCode slash
      cases cs with
      | nil => exact absurd (by rw [slash]; rfl) last
      | cons d cs =>
        constructor <;> intro second <;> cases second
        · exact line cs (by rw [inCode]) slash rfl
        · exact block cs (by rw [inCode]) slash rfl
  | case5 cs ih => simp only [List.cons_append, stripFrom, if_true, ih ends (tail last)]
  | case6 c cs other ih => simpa [stripFrom, other] using ih ends (tail last)
  | case7 cs ih => exact ih ends (tail (tail last))
  | case8 c cs open' ih =>
    have apart (rest : List Char) (held : cs ≠ []) : c = '*' → (cs ++ rest).head? ≠ some '/' := by
      intro star second
      cases cs with
      | nil => exact held rfl
      | cons d cs =>
        cases second
        exact open' cs star rfl
    cases cs with
    | nil => cases ends
    | cons d cs =>
      have held : d :: cs ≠ [] := List.cons_ne_nil _ _
      rw [List.cons_append, stripFrom_blockComment (apart rest held), stripFrom_blockComment
        (by simpa using apart [] held), ih ends (tail last)]
      split <;> rfl

theorem stripFrom_comment {inside : List Char} (unended : ¬ ['*', '/'] <:+: inside)
    (oneLine : '\n' ∉ inside) (rest : List Char) :
    stripFrom .blockComment (inside ++ '*' :: '/' :: rest) = stripFrom (.text .code) rest := by
  induction inside with
  | nil => rfl
  | cons c inside ih =>
    -- A star at the end of the comment does not end it early: the next character is no slash.
    rw [List.infix_cons_iff, not_or] at unended
    rw [List.mem_cons, not_or] at oneLine
    rw [List.cons_append, stripFrom_blockComment, if_neg (Ne.symm oneLine.1), ih unended.2 oneLine.2]
    rintro rfl slash
    cases inside with
    | nil => cases slash
    | cons d inside =>
      cases slash
      exact unended.1 ⟨inside, rfl⟩

/-- Comments are removed, all of them and nothing else: outside strings no comment mark is left, so
that removing them again changes nothing, a text without comment marks stays as it is, and a comment
between two texts leaves no trace. -/
theorem comments_removed (cs : List Char) :
    ¬ [some '/', some '/'] <:+: outline .code (stripComments cs) ∧
    ¬ [some '/', some '*'] <:+: outline .code (stripComments cs) ∧
    stripComments (stripComments cs) = stripComments cs ∧
    (stripComments cs = cs ↔
      ¬ [some '/', some '/'] <:+: outline .code cs ∧ ¬ [some '/', some '*'] <:+: outline .code cs) ∧
    ∀ front inside rest : List Char, (Region.text .code).run front = .text .code →
      front.getLast? ≠ some '/' → ¬ ['*', '/'] <:+: inside → '\n' ∉ inside →
      stripComments (front ++ '/' :: '*' :: (inside ++ '*' :: '/' :: rest)) =
        stripComments (front ++ rest) := by
  have none : Uncommented .code (stripComments cs) := uncommented_stripFrom (.text .code) cs
  obtain ⟨line, block⟩ := uncommented_iff.mp none
  refine ⟨line, block, stripComments_eq_self none, ⟨fun same => ?_, fun unmarked => ?_⟩, ?_⟩
  next => exact same ▸ ⟨line, block⟩
  next => exact stripComments_eq_self (uncommented_iff.mpr unmarked)
  next =>
    intro front inside rest outside last unended oneLine
    calc stripComments (front ++ '/' :: '*' :: (inside ++ '*' :: '/' :: rest))
      _ = stripComments front ++ stripFrom .blockComment (inside ++ '*' :: '/' :: rest) :=
        stripFrom_append_of_run outside last _
      _ = stripComments front ++ stripFrom (.text .code) rest := by
        rw [stripFrom_comment unended oneLine]
      _ = stripComments (front ++ rest) := (stripFrom_append_of_run outside last rest).symm

def withAddress : List Char := "url = \"http://x\"".toList

theorem comments_removed_withAddress :
    (Region.text .code).run withAddress = .text .code ∧ withAddress.getLast? ≠ some '/' ∧
      ¬ ['*', '/'] <:+: "// \" *".toList ∧
      stripComments (withAddress ++ '/' :: '*' :: ("// \" *".toList ++ '*' :: '/' :: "/b".toList)) =
        stripComments (withAddress ++ "/b".toList) := by
  have outside : (Region.text .code).run withAddress = .text .code := by decide
  have last : withAddress.getLast? ≠ some '/' := by decide
  have unended : ¬ ['*', '/'] <:+: "// \" *".toList := by decide
  exact ⟨outside, last, unended,
    (comments_removed []).2.2.2.2 _ _ _ outside last unended (by decide)⟩

end SchemaAtlas.Text
