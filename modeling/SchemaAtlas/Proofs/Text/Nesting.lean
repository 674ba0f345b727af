import SchemaAtlas.Text.Bracket
import SchemaAtlas.Text.Word

/-!
Texts in which every bracket and every string is closed: the grammar of such texts, and that a
search for the partner of a bracket passes over them.
-/

set_option autoImplicit false

namespace SchemaAtlas.Text

/-- What may stand inside a string with a certain quote: the quote itself only behind a backslash. -/
inductive IsQuotable (quote : Char) : List Char → Prop
  | nil : IsQuotable quote []
  | plain {c : Char} {cs : List Char} (other : c ≠ quote) (unescaped : c ≠ '\\')
      (rest : IsQuotable quote cs) : IsQuotable quote (c :: cs)
  | escaped {c : Char} {cs : List Char} (rest : IsQuotable quote cs) :
      IsQuotable quote ('\\' :: c :: cs)

/-- A character that neither a string nor a bracket begins or ends with. -/
def isPlain (c : Char) : Bool := !isQuote c && !isOpener c && !isCloser c

theorem isPlain_of_members {members : Char → Bool}
    (others : ∀ d ∈ ['\'', '"', '\x60', '(', '[', '{', ')', ']', '}'], members d = false) {c : Char}
    (inside : members c = true) : isPlain c = true := by
  have apart : c ∉ ['\'', '"', '\x60', '(', '[', '{', ')', ']', '}'] := fun member => by
    rw [others c member] at inside
    cases inside
  simp only [List.mem_cons, List.not_mem_nil, or_false, not_or] at apart
  have unopened : closerOf? c = none := by
    unfold closerOf?
    split <;> simp_all
  simp [isPlain, isQuote, isOpener, isCloser, unopened, apart]

theorem isPlain_of_isWord {c : Char} (word : isWord c = true) : isPlain c = true :=
  isPlain_of_members (by decide) word

theorem isPlain_of_isBlank {c : Char} (blank : isBlank c = true) : isPlain c = true :=
  isPlain_of_members (by decide) blank

theorem isQuote_of_isPlain {c : Char} (plain : isPlain c = true) : isQuote c = false := by
  simp only [isPlain, Bool.and_eq_true, Bool.not_eq_true'] at plain
  exact plain.1.1

/-- Texts made of plain characters, strings, and such texts between two brackets of a kind. -/
inductive IsNested : List Char → Prop
  | nil : IsNested []
  | plain {c : Char} {cs : List Char} (plain : isPlain c = true) (rest : IsNested cs) :
      IsNested (c :: cs)
  | string {quote : Char} {inside cs : List Char} (isQuote : isQuote quote = true)
      (quotable : IsQuotable quote inside) (rest : IsNested cs) :
      IsNested (quote :: inside ++ quote :: cs)
  | group {opener closer : Char} {inside cs : List Char} (pair : closerOf? opener = some closer)
      (nested : IsNested inside) (rest : IsNested cs) :
      IsNested (opener :: inside ++ closer :: cs)

theorem isQuote_of_isOpener {c : Char} (opener : isOpener c = true) : isQuote c = false := by
  unfold isOpener closerOf? at opener
  split at opener <;> first | rfl | simp at opener

theorem isQuote_of_isCloser {c : Char} (closer : isCloser c = true) : isQuote c = false := by
  simp only [isCloser, Bool.or_eq_true, decide_eq_true_eq] at closer
  rcases closer with (rfl | rfl) | rfl <;> rfl

theorem isOpener_of_pair {opener closer : Char} (pair : closerOf? opener = some closer) :
    isOpener opener = true := by
  simp [isOpener, pair]

theorem isCloser_of_pair {opener closer : Char} (pair : closerOf? opener = some closer) :
    isCloser closer = true ∧ closerOf? closer = none := by
  unfold closerOf? at pair
  split at pair <;> cases pair <;> decide

theorem Mode.next_code {c : Char} (unquoted : isQuote c = false) : Mode.code.next c = .code := by
  simp [Mode.next, unquoted]

theorem Mode.next_quoted {quote : Char} (quotes : isQuote quote = true) :
    (Mode.quoted quote).next quote = .code := by
  have unescaped : quote ≠ '\\' := by
    rintro rfl
    exact absurd quotes (by decide)
  simp [Mode.next, unescaped]

theorem mem_of_mem_outline {mode : Mode} {c : Char} {cs : List Char}
    (member : some c ∈ outline mode cs) : c ∈ cs := by
  induction cs generalizing mode with
  | nil => cases member
  | cons d cs ih =>
    rw [outline, List.mem_cons] at member
    rcases member with here | later
    · split at here
      next => cases here; exact .head _
      next => cases here
    · exact .tail _ (ih later)

theorem outline_code {c : Char} (unquoted : isQuote c = false) (cs : List Char) :
    outline .code (c :: cs) = some c :: outline .code cs := by
  simp [outline, unquoted, Mode.next_code unquoted]

theorem IsQuotable.run {quote : Char} {cs : List Char} (quotable : IsQuotable quote cs) :
    (Mode.quoted quote).run cs = .quoted quote := by
  induction quotable with
  | nil => rfl
  | plain other unescaped _ ih => simpa [Mode.next, other, unescaped] using ih
  | escaped _ ih => simpa [Mode.next] using ih

theorem IsQuotable.of_plain {quote : Char} {cs : List Char} (unquoted : quote ∉ cs)
    (unescaped : '\\' ∉ cs) : IsQuotable quote cs := by
  induction cs with
  | nil => exact .nil
  | cons c cs ih =>
    rw [List.mem_cons, not_or] at unquoted unescaped
    exact .plain (Ne.symm unquoted.1) (Ne.symm unescaped.1) (ih unquoted.2 unescaped.2)

theorem IsQuotable.outline {quote : Char} {cs : List Char} (quotable : IsQuotable quote cs) :
    outline (.quoted quote) cs = List.replicate cs.length none := by
  induction quotable with
  | nil => rfl
  | plain other unescaped _ ih =>
    simpa [Text.outline, Mode.next, other, unescaped, List.replicate_succ] using ih
  | escaped _ ih => simpa [Text.outline, Mode.next, List.replicate_succ] using ih

/-- A string is all gaps. -/
theorem outline_string {quote : Char} {inside : List Char} (quotes : isQuote quote = true)
    (quotable : IsQuotable quote inside) (cs : List Char) :
    outline .code (quote :: inside ++ quote :: cs) =
      List.replicate (inside.length + 2) none ++ outline .code cs := by
  have begins : Mode.code.next quote = .quoted quote := by simp [Mode.next, quotes]
  have gaps : List.replicate (inside.length + 2) (none : Option Char) =
      none :: (List.replicate inside.length none ++ [none]) := by
    rw [← List.replicate_succ', ← List.replicate_succ]
  rw [gaps]
  simp [outline, begins, quotable.run, quotable.outline, Mode.next_quoted quotes, quotes]

theorem IsNested.run {cs : List Char} (nested : IsNested cs) : Mode.code.run cs = .code := by
  induction nested with
  | nil => rfl
  | plain plain _ ih =>
    simp only [isPlain, Bool.and_eq_true, Bool.not_eq_true'] at plain
    simpa [Mode.next_code plain.1.1] using ih
  | @string quote inside cs quotes quotable _ ih =>
    have begins : Mode.code.next quote = .quoted quote := by simp [Mode.next, quotes]
    simpa [begins, quotable.run, Mode.next_quoted quotes] using ih
  | group pair _ _ inner ih =>
    simpa [Mode.next_code (isQuote_of_isOpener (isOpener_of_pair pair)),
      Mode.next_code (isQuote_of_isCloser (isCloser_of_pair pair).1), inner] using ih

theorem outline_group {opener closer : Char} {inside : List Char}
    (pair : closerOf? opener = some closer) (nested : IsNested inside) (cs : List Char) :
    outline .code (opener :: inside ++ closer :: cs) =
      some opener :: (outline .code inside ++ some closer :: outline .code cs) := by
  rw [List.cons_append, outline_code (isQuote_of_isOpener (isOpener_of_pair pair)),
    outline_append, nested.run, outline_code (isQuote_of_isCloser (isCloser_of_pair pair).1)]

theorem closeOffset?_replicate (pending : List Char) (n : Nat) (rest : List (Option Char)) :
    closeOffset? pending (List.replicate n none ++ rest) =
      (closeOffset? pending rest).map (· + n) := by
  induction n with
  | zero => simp
  | succ n ih =>
    simp [List.replicate_succ, closeOffset?, ih, Function.comp_def, Nat.add_assoc]

theorem closeOffset?_plain {c : Char} (unopened : closerOf? c = none) (unclosed : isCloser c = false)
    (pending : List Char) (rest : List (Option Char)) :
    closeOffset? pending (some c :: rest) = (closeOffset? pending rest).map (· + 1) := by
  cases pending <;> simp [closeOffset?, unopened, unclosed]

theorem closeOffset?_opener {opener closer : Char} (pair : closerOf? opener = some closer)
    (pending : List Char) (rest : List (Option Char)) :
    closeOffset? pending (some opener :: rest) =
      (closeOffset? (closer :: pending) rest).map (· + 1) := by
  cases pending <;> simp [closeOffset?, pair]

theorem closeOffset?_closer {c : Char} (unopened : closerOf? c = none) (closes : isCloser c = true)
    (last : Char) (pending : List Char) (rest : List (Option Char)) :
    closeOffset? (c :: last :: pending) (some c :: rest) =
      (closeOffset? (last :: pending) rest).map (· + 1) := by
  simp [closeOffset?, unopened, closes]

/-- What a place means for the brackets that are pending: none goes together with it, it ends the
search, or other ones are pending behind it. -/
def closeStep (pending : List Char) : Option Char → Option (Option (List Char))
  | none => some (some pending)
  | some c =>
    match closerOf? c with
    | some closer => some (some (closer :: pending))
    | none =>
      if isCloser c then
        match pending with
        | [] => none
        | [last] => if c = last then some none else none
        | inner :: outer => if c = inner then some (some outer) else none
      else some (some pending)

theorem closeOffset?_cons (pending : List Char) (place : Option Char) (rest : List (Option Char)) :
    closeOffset? pending (place :: rest) =
      match closeStep pending place with
      | none => none
      | some none => some 0
      | some (some pending) => (closeOffset? pending rest).map (· + 1) := by
  cases place with
  | none => rfl
  | some c =>
    simp only [closeStep]
    cases opener : closerOf? c with
    | some closer => rw [closeOffset?_opener opener]
    | none =>
      by_cases closer : isCloser c = true
      · cases pending with
        | nil => simp [closeOffset?, opener, closer]
        | cons inner outer =>
          by_cases same : c = inner
          · subst same
            cases outer <;> simp [closeOffset?, opener, closer]
          · cases outer <;> simp [closeOffset?, opener, closer, same]
      · rw [closeOffset?_plain opener (by simpa using closer)]
        simp [closer]

/-- A search ends at the bracket that was pending for longest. -/
theorem closeStep_ends {pending : List Char} {place : Option Char}
    (ends : closeStep pending place = some none) : ∃ c, place = some c ∧ pending = [c] := by
  cases place with
  | none => cases ends
  | some c =>
    simp only [closeStep] at ends
    split at ends
    next => cases ends
    next =>
      split at ends
      next =>
        split at ends
        next => cases ends
        next last =>
          split at ends
          next same => exact ⟨c, rfl, by rw [same]⟩
          next => cases ends
        next => split at ends <;> cases ends
      next => cases ends

/-- The bracket that is pending for longest stays the last one. -/
theorem closeStep_pending {pending later : List Char} {place : Option Char} (held : pending ≠ [])
    (goes : closeStep pending place = some (some later)) :
    later ≠ [] ∧ later.getLast? = pending.getLast? := by
  cases place with
  | none =>
    cases goes
    exact ⟨held, rfl⟩
  | some c =>
    simp only [closeStep] at goes
    split at goes
    next =>
      cases goes
      exact ⟨List.cons_ne_nil _ _, by cases pending <;> simp_all⟩
    next =>
      split at goes
      next =>
        split at goes
        next => cases goes
        next => split at goes <;> cases goes
        next inner outer nonempty =>
          split at goes
          next =>
            cases goes
            cases later with
            | nil => exact (nonempty rfl).elim
            | cons c later => simp
          next => cases goes
      next =>
        cases goes
        exact ⟨held, rfl⟩

theorem eq_append_of_closeOffset? {pending cs : List Char} {mode : Mode} {n : Nat}
    (held : pending ≠ []) (found : closeOffset? pending (outline mode cs) = some n) :
    ∃ c, pending.getLast? = some c ∧ cs = cs.take n ++ c :: cs.drop (n + 1) := by
  induction cs generalizing pending mode n with
  | nil => cases found
  | cons d cs ih =>
    rw [outline, closeOffset?_cons] at found
    split at found
    next => cases found
    next ends =>
      cases found
      obtain ⟨c, place, rfl⟩ := closeStep_ends ends
      split at place
      next =>
        cases place
        exact ⟨d, rfl, rfl⟩
      next => cases place
    next later goes =>
      obtain ⟨k, inside, rfl⟩ := Option.map_eq_some_iff.mp found
      obtain ⟨some, last⟩ := closeStep_pending held goes
      obtain ⟨c, outermost, split⟩ := ih some inside
      exact ⟨c, last ▸ outermost, congrArg (d :: ·) split⟩

/-- A group that is cut off is followed by its closing bracket. -/
theorem eq_append_of_closeGroup? {opener : Char} {cs : List Char} {found : List Char × List Char}
    (closed : closeGroup? opener cs = some found) :
    ∃ closer, closerOf? opener = some closer ∧ cs = found.1 ++ closer :: found.2 := by
  simp only [closeGroup?, Option.bind_eq_bind, Option.bind_eq_some_iff] at closed
  obtain ⟨closer, pair, n, offset, same⟩ := closed
  cases same
  obtain ⟨c, last, split⟩ := eq_append_of_closeOffset? (List.cons_ne_nil closer []) offset
  cases last
  exact ⟨closer, pair, split⟩

/-- The search for the end of a group passes over a text in which all is closed. -/
theorem IsNested.closeOffset?_outline {cs : List Char} (nested : IsNested cs) (last : Char)
    (pending : List Char) (rest : List (Option Char)) :
    closeOffset? (last :: pending) (outline .code cs ++ rest) =
      (closeOffset? (last :: pending) rest).map (· + cs.length) := by
  -- What is pending is general: behind an opening bracket its partner comes first.
  induction nested generalizing last pending rest with
  | nil => simp [outline]
  | @plain c cs plain _ ih =>
    simp only [isPlain, Bool.and_eq_true, Bool.not_eq_true'] at plain
    obtain ⟨⟨unquoted, unopened⟩, unclosed⟩ := plain
    have none : closerOf? c = none := by simpa [isOpener] using unopened
    rw [outline_code unquoted, List.cons_append, closeOffset?_plain none unclosed, ih,
      Option.map_map]
    congr 1
  | @string quote inside cs quotes quotable _ ih =>
    rw [outline_string quotes quotable, List.append_assoc, closeOffset?_replicate, ih,
      Option.map_map]
    congr 1
    funext n
    simp only [Function.comp_apply, List.cons_append, List.length_cons, List.length_append]
    omega
  | @group opener closer inside cs pair nested _ inner ih =>
    obtain ⟨closes, ends⟩ := isCloser_of_pair pair
    rw [outline_group pair nested, List.cons_append, List.append_assoc, closeOffset?_opener pair,
      inner, List.cons_append, closeOffset?_closer ends closes, ih, Option.map_map, Option.map_map,
      Option.map_map]
    congr 1
    funext n
    simp only [Function.comp_apply, List.cons_append, List.length_cons, List.length_append]
    omega

theorem IsNested.closeOffset?_append {cs : List Char} (nested : IsNested cs) {opener closer : Char}
    (pair : closerOf? opener = some closer) (rest : List Char) :
    closeOffset? [closer] (outline .code (cs ++ closer :: rest)) = some cs.length := by
  obtain ⟨closes, ends⟩ := isCloser_of_pair pair
  rw [outline_append, nested.closeOffset?_outline, nested.run,
    outline_code (isQuote_of_isCloser closes), closeOffset?]
  simp [ends, closes]

/-- A group is cut off behind a text in which all is closed. -/
theorem IsNested.closeGroup?_append {cs : List Char} (nested : IsNested cs) {opener closer : Char}
    (pair : closerOf? opener = some closer) (rest : List Char) :
    closeGroup? opener (cs ++ closer :: rest) = some (cs, rest) := by
  rw [closeGroup?, pair]
  simp only [Option.bind_eq_bind, Option.bind_some, nested.closeOffset?_append pair]
  simp

theorem IsNested.append_closer_inj {opener closer : Char} (pair : closerOf? opener = some closer)
    {as bs front back : List Char} (first : IsNested as) (second : IsNested bs)
    (same : as ++ closer :: front = bs ++ closer :: back) : as = bs ∧ front = back := by
  have taken := first.closeGroup?_append pair front
  rw [same, second.closeGroup?_append pair back] at taken
  obtain ⟨inside, behind⟩ := Prod.mk.inj (Option.some.inj taken)
  exact ⟨inside.symm, behind.symm⟩

/-- Curly brackets balance in a text in which all is closed. -/
theorem IsNested.balancedFrom_outline {cs : List Char} (nested : IsNested cs) (depth : Nat)
    (rest : List (Option Char)) :
    balancedFrom depth (outline .code cs ++ rest) = balancedFrom depth rest := by
  induction nested generalizing depth rest with
  | nil => rfl
  | @plain c cs plain _ ih =>
    have noOpener : c ≠ '{' := by
      rintro rfl
      cases plain
    have noCloser : c ≠ '}' := by
      rintro rfl
      cases plain
    rw [outline_code (isQuote_of_isPlain plain)]
    simpa [balancedFrom, noOpener, noCloser] using ih depth rest
  | @string quote inside cs quotes quotable _ ih =>
    have gaps : balancedFrom depth (List.replicate (inside.length + 2) none ++
        (outline .code cs ++ rest)) = balancedFrom depth (outline .code cs ++ rest) :=
      balancedFrom_append (by simp) (by simp) depth _
    rw [outline_string quotes quotable, List.append_assoc, gaps, ih]
  | @group opener closer inside cs pair nested _ inner ih =>
    rw [outline_group pair nested, List.cons_append, List.append_assoc, List.cons_append]
    unfold closerOf? at pair
    split at pair <;> cases pair <;> simp [balancedFrom, inner, ih]

theorem IsNested.bracesBalanced {cs : List Char} (nested : IsNested cs) :
    bracesBalanced cs = true := by
  have all := nested.balancedFrom_outline 0 []
  rwa [List.append_nil] at all

theorem balancedFrom_congr (place : Option Char) {first second : List (Option Char)}
    (same : ∀ depth, balancedFrom depth first = balancedFrom depth second) (depth : Nat) :
    balancedFrom depth (place :: first) = balancedFrom depth (place :: second) := by
  cases place with
  | none => exact same depth
  | some c => cases depth <;> simp only [balancedFrom, same]

theorem balancedFrom_front (front : List (Option Char)) {first second : List (Option Char)}
    (same : ∀ depth, balancedFrom depth first = balancedFrom depth second) (depth : Nat) :
    balancedFrom depth (front ++ first) = balancedFrom depth (front ++ second) := by
  induction front generalizing depth with
  | nil => exact same depth
  | cons place front ih => exact balancedFrom_congr place ih depth

/-- A text in which all is closed does not matter for the balance around it. -/
theorem IsNested.bracesBalanced_insert {cs front : List Char} (nested : IsNested cs)
    (code : Mode.code.run front = .code) (rest : List Char) :
    Text.bracesBalanced (front ++ (cs ++ rest)) = Text.bracesBalanced (front ++ rest) := by
  simp only [Text.bracesBalanced, outline_append, code, nested.run]
  exact balancedFrom_front _ (fun depth => nested.balancedFrom_outline depth _) 0

theorem IsNested.append {as bs : List Char} (first : IsNested as) (second : IsNested bs) :
    IsNested (as ++ bs) := by
  induction first with
  | nil => exact second
  | plain plain _ ih => exact .plain plain ih
  | string quotes quotable _ ih =>
    rw [List.append_assoc]
    exact .string quotes quotable ih
  | group pair nested _ _ ih =>
    rw [List.append_assoc]
    exact .group pair nested ih

theorem IsNested.of_plain {cs : List Char} (plain : ∀ c ∈ cs, isPlain c = true) : IsNested cs := by
  induction cs with
  | nil => exact .nil
  | cons c cs ih => exact .plain (plain c (by simp)) (ih fun d member => plain d (by simp [member]))

theorem IsNested.of_blank {cs : List Char} (blank : ∀ c ∈ cs, isBlank c = true) : IsNested cs :=
  .of_plain fun c member => isPlain_of_isBlank (blank c member)

end SchemaAtlas.Text
