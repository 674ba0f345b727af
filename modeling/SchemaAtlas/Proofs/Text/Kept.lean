import Mathlib.Data.List.Forall2
import SchemaAtlas.Proofs.Text.Closed

/-!
What removing comments keeps of a text: every line feed, so that a character stands on the same line
before and afterwards.
-/

set_option autoImplicit false

namespace SchemaAtlas.Text

theorem splitAt_sep (sep : Char) (cs : List Char) :
    splitAt sep (sep :: cs) = [] :: splitAt sep cs :=
  splitAt_append List.not_mem_nil cs

theorem exists_splitAt_cons {sep c : Char} (other : c ≠ sep) (cs : List Char) :
    ∃ piece pieces, splitAt sep cs = piece :: pieces ∧
      splitAt sep (c :: cs) = (c :: piece) :: pieces := by
  cases split : splitAt sep cs with
  | nil =>
    cases cs with
    | nil => cases split
    | cons d cs =>
      rw [splitAt] at split
      split at split
      next => cases split
      next => split at split <;> cases split
  | cons piece pieces => exact ⟨piece, pieces, rfl, by rw [splitAt, if_neg other, split]⟩

theorem exists_splitAt (sep : Char) (cs : List Char) :
    ∃ piece pieces, splitAt sep cs = piece :: pieces := by
  cases cs with
  | nil => exact ⟨[], [], rfl⟩
  | cons c cs =>
    by_cases ends : c = sep
    · rw [ends]
      exact ⟨[], _, splitAt_sep sep cs⟩
    · obtain ⟨piece, pieces, -, longer⟩ := exists_splitAt_cons ends cs
      exact ⟨c :: piece, pieces, longer⟩

theorem splitAt_break (sep : Char) (as bs : List Char) :
    splitAt sep (as ++ sep :: bs) = splitAt sep as ++ splitAt sep bs := by
  induction as with
  | nil => exact splitAt_sep sep bs
  | cons a as ih =>
    by_cases ends : a = sep
    · subst ends
      rw [List.cons_append, splitAt_sep, splitAt_sep, ih, List.cons_append]
    · obtain ⟨piece, pieces, split, longer⟩ := exists_splitAt_cons ends as
      obtain ⟨piece', pieces', split', longer'⟩ := exists_splitAt_cons ends (as ++ sep :: bs)
      rw [ih, split, List.cons_append] at split'
      obtain ⟨rfl, rfl⟩ := List.cons.inj split'
      rw [List.cons_append, longer', longer, List.cons_append]

/-- A front without separators belongs to the first piece. -/
theorem exists_splitAt_append {sep : Char} {front : List Char} (whole : sep ∉ front)
    (cs : List Char) : ∃ piece pieces, splitAt sep cs = piece :: pieces ∧
      splitAt sep (front ++ cs) = (front ++ piece) :: pieces := by
  induction front with
  | nil =>
    obtain ⟨piece, pieces, split⟩ := exists_splitAt sep cs
    exact ⟨piece, pieces, split, split⟩
  | cons c front ih =>
    obtain ⟨piece, pieces, split, longer⟩ := ih fun member => whole (.tail _ member)
    have other : c ≠ sep := fun same => whole (same ▸ .head _)
    obtain ⟨first, later, split', longer'⟩ := exists_splitAt_cons other (front ++ cs)
    rw [longer] at split'
    obtain ⟨rfl, rfl⟩ := List.cons.inj split'
    exact ⟨piece, pieces, split, longer'⟩

/-- The places of the characters that stay when the comments are removed from a region on. -/
def keptFrom : Region → List Char → List Nat
  | _, [] => []
  | .text .code, '/' :: '/' :: cs => (keptFrom .lineComment cs).map (· + 2)
  | .text .code, '/' :: '*' :: cs => (keptFrom .blockComment cs).map (· + 2)
  | .text mode, c :: cs => 0 :: (keptFrom (.text (mode.next c)) cs).map (· + 1)
  | .lineComment, c :: cs =>
    if c = '\n' then 0 :: (keptFrom (.text .code) cs).map (· + 1)
    else (keptFrom .lineComment cs).map (· + 1)
  | .blockComment, '*' :: '/' :: cs => (keptFrom (.text .code) cs).map (· + 2)
  | .blockComment, c :: cs =>
    if c = '\n' then 0 :: (keptFrom .blockComment cs).map (· + 1)
    else (keptFrom .blockComment cs).map (· + 1)

def keptPlaces (cs : List Char) : List Nat := keptFrom (.text .code) cs

/-- A text out of which characters were left, but no line feed: what stays stands at some places. -/
inductive Thinned : List Char → List Nat → List Char → Prop
  | nil : Thinned [] [] []
  | keep (c : Char) {cs kept : List Char} {places : List Nat} (rest : Thinned cs places kept) :
      Thinned (c :: cs) (0 :: places.map (· + 1)) (c :: kept)
  | drop {c : Char} {cs kept : List Char} {places : List Nat} (inLine : c ≠ '\n')
      (rest : Thinned cs places kept) : Thinned (c :: cs) (places.map (· + 1)) kept

namespace Thinned

variable {cs kept : List Char} {places : List Nat}

theorem drop_two {c d : Char} (first : c ≠ '\n') (second : d ≠ '\n')
    (rest : Thinned cs places kept) : Thinned (c :: d :: cs) (places.map (· + 2)) kept := by
  have both := (rest.drop second).drop first
  rwa [List.map_map] at both

theorem ascending (thinned : Thinned cs places kept) : places.Pairwise (· < ·) := by
  have shifted {places : List Nat} (ascends : places.Pairwise (· < ·)) :
      (places.map (· + 1)).Pairwise (· < ·) :=
    ascends.map _ fun _ _ before => Nat.add_lt_add_right before 1
  induction thinned with
  | nil => exact .nil
  | keep c _ ih =>
    apply List.Pairwise.cons _ (shifted ih)
    intro place member
    obtain ⟨earlier, -, rfl⟩ := List.mem_map.mp member
    omega
  | drop _ _ ih => exact shifted ih

theorem reads (thinned : Thinned cs places kept) : kept.map some = places.map (cs[·]?) := by
  induction thinned with
  | nil => rfl
  | keep c _ ih => simp [ih]
  | drop _ _ ih => simp [ih]

theorem count_take (thinned : Thinned cs places kept) {k i : Nat} (place : places[k]? = some i) :
    (kept.take k).count '\n' = (cs.take i).count '\n' := by
  induction thinned generalizing k i with
  | nil => cases place
  | keep c _ ih =>
    cases k with
    | zero =>
      cases place
      rfl
    | succ k =>
      rw [List.getElem?_cons_succ, List.getElem?_map, Option.map_eq_some_iff] at place
      obtain ⟨earlier, place, rfl⟩ := place
      rw [List.take_succ_cons, List.take_succ_cons, List.count_cons, List.count_cons, ih place]
  | drop inLine _ ih =>
    rw [List.getElem?_map, Option.map_eq_some_iff] at place
    obtain ⟨earlier, place, rfl⟩ := place
    rw [List.take_succ_cons, List.count_cons_of_ne inLine, ih place]

theorem lines (thinned : Thinned cs places kept) :
    List.Forall₂ List.Sublist (lines kept) (lines cs) := by
  -- A character in front becomes part of the first line, which both texts have.
  induction thinned with
  | nil => exact .cons .slnil .nil
  | @keep c cs kept _ _ ih =>
    by_cases feed : c = '\n'
    next =>
      rw [feed, Text.lines, Text.lines, splitAt_sep, splitAt_sep]
      exact .cons .slnil ih
    next =>
      obtain ⟨line, more, split, longer⟩ := exists_splitAt_cons feed cs
      obtain ⟨line', more', split', longer'⟩ := exists_splitAt_cons feed kept
      rw [Text.lines, Text.lines, split, split'] at ih
      rw [Text.lines, Text.lines, longer, longer']
      obtain ⟨first, later⟩ := List.forall₂_cons.mp ih
      exact .cons (first.cons_cons c) later
  | @drop c cs kept _ inLine _ ih =>
    obtain ⟨line, more, split, longer⟩ := exists_splitAt_cons inLine cs
    obtain ⟨line', more', split', -⟩ := exists_splitAt_cons inLine kept
    rw [Text.lines, Text.lines, split, split'] at ih
    rw [Text.lines, Text.lines, longer, split']
    obtain ⟨first, later⟩ := List.forall₂_cons.mp ih
    exact .cons (first.cons c) later

end Thinned

theorem stripFrom_thinned (region : Region) (cs : List Char) :
    Thinned cs (keptFrom region cs) (stripFrom region cs) := by
  fun_induction stripFrom region cs with
  | case1 => exact .nil
  | case2 cs ih => exact ih.drop_two (by decide) (by decide)
  | case3 cs ih => exact ih.drop_two (by decide) (by decide)
  | case4 mode c cs line block ih =>
    rw [keptFrom.eq_4 mode c cs line block]
    exact ih.keep c
  | case5 cs ih =>
    rw [keptFrom, if_pos rfl]
    exact ih.keep _
  | case6 c cs inLine ih =>
    rw [keptFrom, if_neg inLine]
    exact ih.drop inLine
  | case7 cs ih => exact ih.drop_two (by decide) (by decide)
  | case8 cs unended ih =>
    rw [keptFrom.eq_7 _ _ unended, if_pos rfl]
    exact ih.keep _
  | case9 c cs unended inLine ih =>
    rw [keptFrom.eq_7 _ _ unended, if_neg inLine]
    exact ih.drop inLine

theorem stripComments_thinned (cs : List Char) :
    Thinned cs (keptPlaces cs) (stripComments cs) :=
  stripFrom_thinned (.text .code) cs

theorem lineNumberAt_natCast (cs : List Char) (i : Nat) :
    lineNumberAt cs i = (cs.take i).count '\n' + 1 := by
  have front : ¬ (i : Int) < 0 := by omega
  simp only [lineNumberAt, front, if_false, Int.toNat_natCast, lineAfter]

/-- The line on which a character of the text without comments stands in the text with them. -/
def originalLine? (cs : List Char) (k : Nat) : Option Nat :=
  (keptPlaces cs)[k]?.map fun i : Nat => lineNumberAt cs i

theorem originalLine?_eq {cs : List Char} {k : Nat} (within : k < (stripComments cs).length) :
    originalLine? cs k = some (lineNumberAt (stripComments cs) k) := by
  have thinned := stripComments_thinned cs
  have length := congrArg List.length thinned.reads
  rw [List.length_map, List.length_map] at length
  have place : (keptPlaces cs)[k]? = some (keptPlaces cs)[k] := List.getElem?_eq_getElem (by omega)
  rw [originalLine?, place, Option.map_some, lineNumberAt_natCast, lineNumberAt_natCast,
    thinned.count_take place]

/-- Without its comments a text has as many lines, and each is what is left of the line with its
number: a character that stays has the same line number in both texts. -/
theorem lines_kept (cs : List Char) :
    (lines (stripComments cs)).length = (lines cs).length ∧
    List.Forall₂ List.Sublist (lines (stripComments cs)) (lines cs) ∧
    (keptPlaces cs).Pairwise (· < ·) ∧
    (stripComments cs).map some = (keptPlaces cs).map (cs[·]?) ∧
    ∀ k i : Nat, (keptPlaces cs)[k]? = some i →
      lineNumberAt (stripComments cs) k = lineNumberAt cs i := by
  have thinned := stripComments_thinned cs
  have numbered (k i : Nat) (place : (keptPlaces cs)[k]? = some i) :
      lineNumberAt (stripComments cs) k = lineNumberAt cs i := by
    rw [lineNumberAt_natCast, lineNumberAt_natCast, thinned.count_take place]
  exact ⟨thinned.lines.length_eq, thinned.lines, thinned.ascending, thinned.reads, numbered⟩

end SchemaAtlas.Text
