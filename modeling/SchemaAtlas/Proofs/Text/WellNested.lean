import SchemaAtlas.Proofs.Text.Closed
import SchemaAtlas.Proofs.Text.Groups

/-!
Texts that are well-nested as a whole: one scan from the front finds all brackets closed in order
and all strings closed. A search that starts at some bracket inside then ends, too.
-/

set_option autoImplicit false

namespace SchemaAtlas.Text

/-- The closing brackets that are still to come behind a text, innermost first, unless some bracket
is closed out of order. -/
def pendingBehind (pending : List Char) : List (Option Char) → Option (List Char)
  | [] => some pending
  | none :: cs => pendingBehind pending cs
  | some c :: cs =>
    match closerOf? c with
    | some closer => pendingBehind (closer :: pending) cs
    | none =>
      if isCloser c then
        match pending with
        | [] => none
        | inner :: outer => if c = inner then pendingBehind outer cs else none
      else pendingBehind pending cs

structure WellNested (cs : List Char) : Prop where
  strings : Mode.code.run cs = .code
  brackets : pendingBehind [] (outline .code cs) = some []

instance (cs : List Char) : Decidable (WellNested cs) :=
  decidable_of_iff (Mode.code.run cs = .code ∧ pendingBehind [] (outline .code cs) = some [])
    ⟨fun ⟨strings, brackets⟩ => ⟨strings, brackets⟩, fun ⟨strings, brackets⟩ => ⟨strings, brackets⟩⟩

section Scan

variable {pending outer : List Char}

theorem pendingBehind_opener {opener closer : Char} (pair : closerOf? opener = some closer)
    (places : List (Option Char)) :
    pendingBehind pending (some opener :: places) = pendingBehind (closer :: pending) places := by
  simp [pendingBehind, pair]

theorem pendingBehind_closer {closer : Char} (unopened : closerOf? closer = none)
    (closes : isCloser closer = true) (places : List (Option Char)) :
    pendingBehind (closer :: pending) (some closer :: places) = pendingBehind pending places := by
  simp [pendingBehind, unopened, closes]

theorem pendingBehind_plain {c : Char} (unopened : closerOf? c = none)
    (unclosed : isCloser c = false) (places : List (Option Char)) :
    pendingBehind pending (some c :: places) = pendingBehind pending places := by
  simp [pendingBehind, unopened, unclosed]

theorem pendingBehind_replicate (n : Nat) (places : List (Option Char)) :
    pendingBehind pending (List.replicate n none ++ places) = pendingBehind pending places := by
  induction n with
  | zero => rfl
  | succ n ih => exact ih

theorem pendingBehind_append (front places : List (Option Char)) :
    pendingBehind pending (front ++ places) =
      (pendingBehind pending front).bind (pendingBehind · places) := by
  fun_induction pendingBehind pending front with
  | case1 => rfl
  | case2 _ _ ih => exact ih
  | case3 _ c _ closer pair ih => rw [List.cons_append, pendingBehind_opener pair, ih]
  | case4 c _ unopened closes => simp [pendingBehind, unopened, closes]
  | case5 c _ outer unopened closes ih =>
    rw [List.cons_append, pendingBehind_closer unopened closes, ih]
  | case6 c _ unopened closes inner outer other =>
    simp [pendingBehind, unopened, closes, other]
  | case7 _ c _ unopened closes ih =>
    rw [List.cons_append, pendingBehind_plain unopened (by simpa using closes), ih]

theorem pendingBehind_beneath {places : List (Option Char)} {left : List Char}
    (scanned : pendingBehind pending places = some left) (outer : List Char) :
    pendingBehind (pending ++ outer) places = some (left ++ outer) := by
  -- A scan that succeeds never looks beneath the brackets it began with.
  fun_induction pendingBehind pending places with
  | case1 => cases scanned; rfl
  | case2 _ _ ih => exact ih scanned
  | case3 _ c _ closer pair ih => rw [pendingBehind_opener pair]; exact ih scanned
  | case4 => cases scanned
  | case5 c _ _ unopened closes ih =>
    rw [List.cons_append, pendingBehind_closer unopened closes]
    exact ih scanned
  | case6 => cases scanned
  | case7 _ c _ unopened closes ih =>
    rw [pendingBehind_plain unopened (by simpa using closes)]
    exact ih scanned

theorem IsNested.pendingBehind_outline {cs : List Char} (nested : IsNested cs)
    (pending : List Char) (places : List (Option Char)) :
    pendingBehind pending (outline .code cs ++ places) = pendingBehind pending places := by
  induction nested generalizing pending places with
  | nil => rfl
  | @plain c cs plain _ ih =>
    have unquoted := isQuote_of_isPlain plain
    simp only [isPlain, isOpener, Bool.and_eq_true, Bool.not_eq_true', Option.isSome_eq_false_iff,
      Option.isNone_iff_eq_none] at plain
    rw [outline_code unquoted, List.cons_append, pendingBehind_plain plain.1.2 plain.2, ih]
  | string quotes quotable _ ih =>
    rw [outline_string quotes quotable, List.append_assoc, pendingBehind_replicate, ih]
  | group pair nested _ inner ih =>
    obtain ⟨closes, unopened⟩ := isCloser_of_pair pair
    rw [outline_group pair nested, List.cons_append, List.append_assoc, pendingBehind_opener pair,
      inner, List.cons_append, pendingBehind_closer unopened closes, ih]

/-- A search finds its end if a scan that begins with more brackets closes those of the search. -/
theorem closeOffset?_isSome {places : List (Option Char)} {left : List Char} (held : pending ≠ [])
    (scanned : pendingBehind (pending ++ outer) places = some left)
    (short : left.length ≤ outer.length) : (closeOffset? pending places).isSome = true := by
  -- The brackets of the search lie on top of the others until the first place where none is left.
  induction places generalizing pending with
  | nil =>
    cases scanned
    rw [List.length_append] at short
    exact absurd (List.length_eq_zero_iff.mp (by omega)) held
  | cons place places ih =>
    have onward (later : List Char) (goes : closeStep pending place = some (some later))
        (scanned : pendingBehind (later ++ outer) places = some left) :
        (closeOffset? pending (place :: places)).isSome = true := by
      rw [closeOffset?_cons, goes]
      simpa using ih (closeStep_pending held goes).1 scanned
    cases place with
    | none => exact onward _ rfl scanned
    | some c =>
      cases pair : closerOf? c with
      | some closer =>
        rw [pendingBehind_opener pair] at scanned
        exact onward (closer :: pending) (by simp [closeStep, pair]) scanned
      | none =>
        by_cases closes : isCloser c = true
        next =>
          cases pending with
          | nil => exact absurd rfl held
          | cons inner rest =>
            by_cases same : c = inner
            next =>
              subst same
              rw [List.cons_append, pendingBehind_closer pair closes] at scanned
              cases rest with
              | nil => simp [closeOffset?_cons, closeStep, pair, closes]
              | cons d rest => exact onward _ (by simp [closeStep, pair, closes]) scanned
            next => simp [pendingBehind, pair, closes, same] at scanned
        next =>
          rw [pendingBehind_plain pair (by simpa using closes)] at scanned
          exact onward _ (by simp [closeStep, pair, closes]) scanned

end Scan

theorem IsNested.wellNested {cs : List Char} (nested : IsNested cs) : WellNested cs where
  strings := nested.run
  brackets := by simpa [pendingBehind] using nested.pendingBehind_outline [] []

namespace WellNested

variable {cs : List Char}

theorem closes (whole : WellNested cs) {front rest : List Char} {opener closer : Char}
    (split : cs = front ++ opener :: rest) (outside : Mode.code.run front = .code)
    (pair : closerOf? opener = some closer) :
    (closeOffset? [closer] (outline .code rest)).isSome = true := by
  subst split
  have scanned := whole.brackets
  rw [outline_append, outside, outline_code (isQuote_of_isOpener (isOpener_of_pair pair)),
    pendingBehind_append, Option.bind_eq_some_iff] at scanned
  obtain ⟨outer, -, scanned⟩ := scanned
  rw [pendingBehind_opener pair] at scanned
  exact closeOffset?_isSome (List.cons_ne_nil _ _) scanned (Nat.zero_le _)

theorem isNested (whole : WellNested cs) : IsNested cs := by
  -- A bracket put behind the text ends a group that all of the text lies in.
  have scanned : pendingBehind ([')'] ++ []) (outline .code (cs ++ [')'])) = some [] := by
    have beneath := pendingBehind_beneath whole.brackets [')']
    rw [outline_append, whole.strings, pendingBehind_append]
    exact congrArg (·.bind (pendingBehind · (outline .code [')']))) beneath
  obtain ⟨n, found⟩ := Option.isSome_iff_exists.mp
    (closeOffset?_isSome (List.cons_ne_nil _ _) scanned (Nat.zero_le _))
  have pair : closerOf? '(' = some ')' := rfl
  obtain ⟨inside, rest, nested, split, -⟩ := (closeOffset?_eq_some_iff pair).mp found
  cases behind : rest.reverse with
  | nil =>
    rw [List.reverse_eq_nil_iff.mp behind] at split
    rwa [List.append_cancel_right split]
  | cons last middle =>
    -- The group ends before the text does, so that the text closes more than it opens.
    rw [List.reverse_eq_cons_iff.mp behind, ← List.cons_append, ← List.append_assoc] at split
    have early := whole.brackets
    rw [(List.append_inj' split rfl).1, outline_append, nested.pendingBehind_outline,
      nested.run] at early
    cases early

end WellNested

theorem wellNested_iff_isNested {cs : List Char} : WellNested cs ↔ IsNested cs :=
  ⟨WellNested.isNested, IsNested.wellNested⟩

instance (cs : List Char) : Decidable (IsNested cs) := decidable_of_iff _ wellNested_iff_isNested

theorem split_of_blockHeader? {keyword cs : List Char} {before : Option Char}
    {found : List Char × List Char} (word : IsWordText keyword)
    (header : blockHeader? keyword before cs = some found) :
    ∃ head, cs = head ++ '{' :: found.2 ∧ ∀ c ∈ head, isQuote c = false := by
  obtain ⟨gap, space, -, blank, named, spaced, rfl⟩ := parts_of_blockHeader? header
  refine ⟨keyword ++ (gap ++ (found.1 ++ space)), by simp, fun c member => ?_⟩
  -- A header consists of words, blanks and a brace, none of which begins a string.
  have solid {c : Char} (member : isWord c = true) : isQuote c = false :=
    isQuote_of_isPlain (isPlain_of_isWord member)
  have hollow {c : Char} (member : isBlank c = true) : isQuote c = false :=
    isQuote_of_isPlain (isPlain_of_isBlank member)
  simp only [List.mem_append] at member
  rcases member with member | member | member | member
  next => exact solid (word.2 c member)
  next => exact hollow (blank c member)
  next => exact solid (named.2 c member)
  next => exact hollow (spaced c member)

theorem isNested_of_mem_blocks {keyword : String} {cs : List Char} {block : Block}
    (member : block ∈ (blocks keyword cs).blocks) : IsNested block.body := by
  unfold blocks at member
  generalize 0 = skip, 1 = line, (none : Option Char) = before at member
  fun_induction blocksFrom keyword.toList skip line before cs with
  | case1 => simp at member
  | case2 _ _ _ _ _ _ ih => exact ih member
  | case3 _ _ _ _ _ _ ih => exact ih member
  | case4 => simp at member
  | case5 line before c cs next name behind header _ body rest closed scan ih =>
    rcases List.mem_cons.mp member with rfl | later
    next =>
      obtain ⟨_, -, nested, -⟩ := closeGroup?_eq_some_iff.mp closed
      exact nested
    next => exact ih later

theorem outside_of_outline {mode : Mode} {cs : List Char} {i : Nat} {c : Char}
    (stands : (outline mode cs)[i]? = some (some c)) :
    cs[i]? = some c ∧ mode.run (cs.take i) = .code := by
  induction cs generalizing mode i with
  | nil => cases stands
  | cons d cs ih =>
    cases i with
    | zero =>
      rw [outline, List.getElem?_cons_zero, Option.some.injEq] at stands
      split at stands
      next plain =>
        cases stands
        exact ⟨rfl, plain.1⟩
      next => cases stands
    | succ i => exact ih stands

theorem unclosed_eq_none {keyword cs : List Char} {before : Option Char}
    (closes : ∀ front rest found, cs = front ++ rest →
      blockHeader? keyword (front.getLast?.or before) rest = some found →
        (closeGroup? '{' found.2).isSome = true)
    (skip line : Nat) : (blocksFrom keyword skip line before cs).unclosed = none := by
  -- A header further on has all that was passed before it in front, with the old character first.
  induction cs generalizing before skip line with
  | nil => rfl
  | cons c cs ih =>
    have onward (skip line : Nat) : (blocksFrom keyword skip line (some c) cs).unclosed = none := by
      refine ih (fun front rest found split header => ?_) skip line
      refine closes (c :: front) rest found (congrArg (c :: ·) split) ?_
      rw [List.getLast?_cons]
      cases last : front.getLast? <;> simpa [last] using header
    cases skip with
    | succ skip => exact onward _ _
    | zero =>
      rw [blocksFrom]
      cases header : blockHeader? keyword before (c :: cs) with
      | none => exact onward _ _
      | some found =>
        obtain ⟨group, closed⟩ := Option.isSome_iff_exists.mp (closes [] _ found rfl header)
        simp only [closed]
        exact onward _ _

/-- In a well-nested text every bracket outside strings has a partner, the braces balance, and
blocks whose headers begin outside strings are all closed, each with a body that is well-nested. -/
theorem partners_of_wellNested {cs : List Char} (whole : WellNested cs) :
    (∀ (i : Nat) (opener : Char), (outline .code cs)[i]? = some (some opener) →
      isOpener opener = true → ∃ j : Nat, partner? cs i = .ok (some (j : Int))) ∧
    bracesBalanced cs = true ∧
    ∀ keyword : String, IsWordText keyword.toList →
      (∀ front rest, cs = front ++ rest →
        (blockHeader? keyword.toList front.getLast? rest).isSome = true →
          Mode.code.run front = .code) →
      (blocks keyword cs).unclosed = none ∧
        ∀ block ∈ (blocks keyword cs).blocks, WellNested block.body := by
  refine ⟨fun i opener stands opens => ?_, whole.isNested.bracesBalanced,
    fun keyword word outside => ⟨?_, fun block member => (isNested_of_mem_blocks member).wellNested⟩⟩
  next =>
    obtain ⟨closer, pair⟩ := Option.isSome_iff_exists.mp opens
    obtain ⟨stands, code⟩ := outside_of_outline stands
    -- The search starts behind the bracket, with nothing of what the whole scan has seen before it.
    obtain ⟨within, same⟩ := List.getElem?_eq_some_iff.mp stands
    have split : cs = cs.take i ++ opener :: cs.drop (i + 1) := by
      rw [← same, ← List.drop_eq_getElem_cons within, List.take_append_drop]
    obtain ⟨n, found⟩ := Option.isSome_iff_exists.mp (whole.closes split code pair)
    exact ⟨i + 1 + n, by rw [partner?_eq stands pair, found]; rfl⟩
  next =>
    refine unclosed_eq_none (fun front rest found split header => ?_) 0 1
    rw [Option.or_none] at header
    obtain ⟨head, parts, unquoted⟩ := split_of_blockHeader? word header
    have code : Mode.code.run (front ++ head) = .code := by
      rw [Mode.run_append, outside front rest split (by rw [header]; rfl), run_unquoted unquoted]
    obtain ⟨n, closed⟩ := Option.isSome_iff_exists.mp
      (whole.closes (by rw [split, parts, List.append_assoc]) code rfl)
    simp [closeGroup?, closerOf?, closed]

def bracedString : List Char := "enum E \x7b A \x7d\nmodel M \x7b s S @x(\"model N \x7b\") \x7d".toList

theorem partners_of_wellNested_bracedString : WellNested bracedString ∧
    (∃ j : Nat, partner? bracedString 21 = .ok (some (j : Int))) ∧
    bracesBalanced bracedString = true ∧ (blocks "enum" bracedString).unclosed = none ∧
    ∀ block ∈ (blocks "enum" bracedString).blocks, WellNested block.body := by
  have whole : WellNested bracedString := by decide
  obtain ⟨partner, balanced, scan⟩ := partners_of_wellNested whole
  have outside : ∀ i ∈ List.range (bracedString.length + 1),
      (blockHeader? "enum".toList (bracedString.take i).getLast? (bracedString.drop i)).isSome = true →
        Mode.code.run (bracedString.take i) = .code := by
    decide +kernel
  obtain ⟨closed, bodies⟩ := scan "enum" (by decide) fun front rest split header => by
    have place : front.length ∈ List.range (bracedString.length + 1) := by
      rw [List.mem_range, split, List.length_append]
      omega
    have here := outside front.length place
    rw [split, List.take_left, List.drop_left] at here
    exact here header
  exact ⟨whole, partner 21 '\x7b' (by decide) (by decide), balanced, closed, bodies⟩

end SchemaAtlas.Text
