import SchemaAtlas.Text.Quote

/-!
Comments: from two slashes to the end of the line, and from slash and star to star and slash.
Comment marks inside strings are text.
-/

set_option autoImplicit false

namespace SchemaAtlas.Text

/-- The part of a text that a scan for comments stands in. -/
inductive Region
  | text (mode : Mode)
  | lineComment
  | blockComment
  deriving DecidableEq, Repr

/-- The text without its comments, from a region on. -/
def stripFrom : Region → List Char → List Char
  | _, [] => []
  | .text .code, '/' :: '/' :: cs => stripFrom .lineComment cs
  | .text .code, '/' :: '*' :: cs => stripFrom .blockComment cs
  | .text mode, c :: cs => c :: stripFrom (.text (mode.next c)) cs
  | .lineComment, c :: cs =>
    if c = '\n' then c :: stripFrom (.text .code) cs else stripFrom .lineComment cs
  | .blockComment, '*' :: '/' :: cs => stripFrom (.text .code) cs
  | .blockComment, c :: cs =>
    if c = '\n' then c :: stripFrom .blockComment cs else stripFrom .blockComment cs

/-- The text without its comments. Line feeds inside a comment stay, so that every character keeps
its line. -/
def stripComments (cs : List Char) : List Char := stripFrom (.text .code) cs

theorem stripFrom_subset (region : Region) (cs : List Char) : stripFrom region cs ⊆ cs := by
  have one {c : Char} {as bs : List Char} (within : as ⊆ bs) : as ⊆ c :: bs :=
    List.subset_cons_of_subset c within
  fun_induction stripFrom region cs with
  | case1 => exact List.Subset.refl _
  | case2 cs ih => exact one (one ih)
  | case3 cs ih => exact one (one ih)
  | case4 mode c cs _ _ ih => exact List.cons_subset_cons c ih
  | case5 cs ih => exact List.cons_subset_cons _ ih
  | case6 c cs _ ih => exact one ih
  | case7 cs ih => exact one (one ih)
  | case8 cs _ ih => exact List.cons_subset_cons _ ih
  | case9 c cs _ _ ih => exact one ih

/-- Whether no comment begins in a text that a scan enters in a mode. -/
def Uncommented : Mode → List Char → Prop
  | _, [] => True
  | mode, c :: cs =>
    ¬ (mode = .code ∧ c = '/' ∧ (cs.head? = some '/' ∨ cs.head? = some '*')) ∧
      Uncommented (mode.next c) cs

instance decidableUncommented (mode : Mode) (cs : List Char) : Decidable (Uncommented mode cs) :=
  match cs with
  | [] => .isTrue trivial
  | c :: cs =>
    have := decidableUncommented (mode.next c) cs
    inferInstanceAs (Decidable (_ ∧ _))

theorem stripFrom_text {mode : Mode} {c : Char} {cs : List Char}
    (begins : mode = .code → c = '/' → cs.head? ≠ some '/' ∧ cs.head? ≠ some '*') :
    stripFrom (.text mode) (c :: cs) = c :: stripFrom (.text (mode.next c)) cs := by
  refine stripFrom.eq_4 mode c cs (fun rest inCode slash => ?_) fun rest inCode slash => ?_
  all_goals
    rintro rfl
    simpa using begins (by simpa using inCode) slash

theorem stripFrom_eq_self {mode : Mode} {cs : List Char} (uncommented : Uncommented mode cs) :
    stripFrom (.text mode) cs = cs := by
  induction cs generalizing mode with
  | nil => cases mode <;> rfl
  | cons c cs ih =>
    obtain ⟨begins, later⟩ := uncommented
    rw [stripFrom_text fun inCode slash => by simpa [inCode, slash] using begins, ih later]

theorem stripComments_eq_self {cs : List Char} (uncommented : Uncommented .code cs) :
    stripComments cs = cs :=
  stripFrom_eq_self uncommented

theorem Uncommented.quiet_append {quiet rest : List Char}
    (plain : ∀ c ∈ quiet, c ≠ '/' ∧ isQuote c = false) (later : Uncommented .code rest) :
    Uncommented .code (quiet ++ rest) := by
  induction quiet with
  | nil => exact later
  | cons c quiet ih =>
    obtain ⟨solid, unquoted⟩ := plain c (.head _)
    refine ⟨by simp [solid], ?_⟩
    rw [show Mode.code.next c = .code by simp [Mode.next, unquoted]]
    exact ih fun d member => plain d (.tail _ member)

theorem Uncommented.append {mode : Mode} {as bs : List Char} (first : Uncommented mode as)
    (second : Uncommented (mode.run as) bs)
    (begins : bs.head? ≠ some '/' ∧ bs.head? ≠ some '*') : Uncommented mode (as ++ bs) := by
  induction as generalizing mode with
  | nil => exact second
  | cons a as ih =>
    refine ⟨?_, ih first.2 second⟩
    cases as with
    | nil => simp [begins]
    | cons b as => exact first.1

end SchemaAtlas.Text
