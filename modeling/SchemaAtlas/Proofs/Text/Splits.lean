import SchemaAtlas.Proofs.Text.Nesting
import SchemaAtlas.Proofs.Text.Runs

/-!
Splitting a text at separators outside its brackets and strings: what has its brackets and strings
closed stays in one piece.
-/

set_option autoImplicit false

namespace SchemaAtlas.Text

section Whole

variable {isSeparator : Char → Bool} {cs : List Char}

/-- A text without separators is one piece. -/
theorem splitFrom_whole (whole : ∀ c ∈ cs, isSeparator c = false) (mode : Mode) (depth : Int) :
    splitFrom isSeparator mode depth cs = [cs] := by
  induction cs generalizing mode depth with
  | nil => rfl
  | cons c cs ih =>
    have here := whole c (.head _)
    have later := fun mode depth => ih (fun d member => whole d (.tail _ member)) mode depth
    rw [splitFrom]
    simp only [here, later, Bool.false_eq_true, and_false, if_false]

theorem splitCommas_whole (some : cs ≠ []) (whole : ',' ∉ cs)
    (solid : ∀ c ∈ cs, isBlank c = false) : splitCommas cs = [cs] := by
  have apart : ∀ c ∈ cs, decide (c = ',') = false := by
    intro c member
    rw [decide_eq_false_iff_not]
    rintro rfl
    exact whole member
  have trimmed : trim cs = cs :=
    trim_eq_self ⟨fun c first => solid c (List.mem_of_head? first),
      fun c last => solid c (List.mem_of_getLast? last)⟩
  rw [splitCommas, splitTopLevel, splitFrom_whole apart]
  simp [trimmed, some]

end Whole

/-- Characters put in front of the first of some pieces. -/
def prepend (cs : List Char) : List (List Char) → List (List Char)
  | [] => [cs]
  | piece :: pieces => (cs ++ piece) :: pieces

theorem prepend_append (as bs : List Char) (pieces : List (List Char)) :
    prepend (as ++ bs) pieces = prepend as (prepend bs pieces) := by
  cases pieces <;> simp [prepend]

theorem prepend_nil {pieces : List (List Char)} (some : pieces ≠ []) :
    prepend [] pieces = pieces := by
  cases pieces with
  | nil => exact absurd rfl some
  | cons => rfl

variable {isSeparator : Char → Bool} {depth : Int}

theorem splitFrom_ne_nil (mode : Mode) (cs : List Char) :
    splitFrom isSeparator mode depth cs ≠ [] := by
  cases cs with
  | nil => simp [splitFrom]
  | cons c cs =>
    rw [splitFrom]
    generalize (if (mode = .code ∧ isQuote c = false) ∧ isOpener c = true then (1 : Int)
      else if (mode = .code ∧ isQuote c = false) ∧ isCloser c = true then -1 else 0) = deeper
    split
    next => exact List.cons_ne_nil _ _
    next => split <;> exact List.cons_ne_nil _ _

theorem splitFrom_plain {c : Char} (plain : isPlain c = true)
    (whole : depth ≠ 0 ∨ isSeparator c = false) (cs : List Char) :
    splitFrom isSeparator .code depth (c :: cs) =
      prepend [c] (splitFrom isSeparator .code depth cs) := by
  simp only [isPlain, Bool.and_eq_true, Bool.not_eq_true'] at plain
  obtain ⟨⟨unquoted, unopened⟩, unclosed⟩ := plain
  have together : ¬ (depth = 0 ∧ isSeparator c = true) := by
    rcases whole with deep | other
    · exact fun both => deep both.1
    · simp [other]
  rw [splitFrom]
  simp only [unquoted, unopened, unclosed, together, Mode.next_code unquoted, and_self,
    Bool.false_eq_true, and_false, if_false, Int.add_zero]
  rfl

theorem splitFrom_opener {c : Char} (opener : isOpener c = true) (cs : List Char) :
    splitFrom isSeparator .code depth (c :: cs) =
      prepend [c] (splitFrom isSeparator .code (depth + 1) cs) := by
  have unquoted := isQuote_of_isOpener opener
  rw [splitFrom]
  simp only [unquoted, opener, Mode.next_code unquoted, and_self, if_true, Int.one_ne_zero,
    false_and, and_false, if_false]
  rfl

theorem splitFrom_closer {c : Char} (unopened : closerOf? c = none) (closer : isCloser c = true)
    (cs : List Char) : splitFrom isSeparator .code depth (c :: cs) =
      prepend [c] (splitFrom isSeparator .code (depth - 1) cs) := by
  have unquoted := isQuote_of_isCloser closer
  have other : isOpener c = false := by simp [isOpener, unopened]
  rw [splitFrom]
  simp only [unquoted, closer, other, Mode.next_code unquoted, and_self, if_true, if_false,
    Bool.false_eq_true, and_false, false_and, Int.reduceNeg, show ¬ ((-1 : Int) = 0) by decide]
  rfl

theorem splitFrom_quote {c : Char} (quotes : isQuote c = true) (cs : List Char) :
    splitFrom isSeparator .code depth (c :: cs) =
      prepend [c] (splitFrom isSeparator (Mode.code.next c) depth cs) := by
  rw [splitFrom]
  simp only [quotes, and_false, false_and, if_false, Int.add_zero, Bool.true_eq_false]
  rfl

theorem splitFrom_quoted {mode : Mode} (inside : mode ≠ .code) (c : Char) (cs : List Char) :
    splitFrom isSeparator mode depth (c :: cs) =
      prepend [c] (splitFrom isSeparator (mode.next c) depth cs) := by
  rw [splitFrom]
  simp only [inside, false_and, if_false, Int.add_zero]
  rfl

theorem IsQuotable.splitFrom_append {quote : Char} {inside : List Char}
    (quotable : IsQuotable quote inside) (rest : List Char) :
    splitFrom isSeparator (.quoted quote) depth (inside ++ rest) =
      prepend inside (splitFrom isSeparator (.quoted quote) depth rest) := by
  induction quotable with
  | nil => rw [List.nil_append, prepend_nil (splitFrom_ne_nil _ _)]
  | @plain c cs other unescaped _ ih =>
    have stays : (Mode.quoted quote).next c = .quoted quote := by simp [Mode.next, other, unescaped]
    rw [List.cons_append, splitFrom_quoted (by simp), stays, ih, ← prepend_append, List.cons_append,
      List.nil_append]
  | @escaped c cs _ ih =>
    have escapes : (Mode.quoted quote).next '\\' = .escaped quote := by simp [Mode.next]
    have returns : (Mode.escaped quote).next c = .quoted quote := rfl
    rw [List.cons_append, List.cons_append, splitFrom_quoted (by simp), escapes,
      splitFrom_quoted (by simp), returns, ih, ← prepend_append, ← prepend_append]
    rfl

/-- A text belongs to one piece at some depth, whatever follows. -/
def Stays (isSeparator : Char → Bool) (depth : Int) (cs : List Char) : Prop :=
  ∀ rest, splitFrom isSeparator .code depth (cs ++ rest) =
    prepend cs (splitFrom isSeparator .code depth rest)

theorem Stays.nil : Stays isSeparator depth [] := fun rest => by
  rw [List.nil_append, prepend_nil (splitFrom_ne_nil _ _)]

theorem Stays.append {as bs : List Char} (first : Stays isSeparator depth as)
    (second : Stays isSeparator depth bs) : Stays isSeparator depth (as ++ bs) := fun rest => by
  rw [List.append_assoc, first, second, prepend_append]

theorem Stays.plain {cs : List Char} (plain : ∀ c ∈ cs, isPlain c = true)
    (whole : ∀ c ∈ cs, isSeparator c = false) : Stays isSeparator depth cs := by
  induction cs with
  | nil => exact .nil
  | cons c cs ih =>
    have here : Stays isSeparator depth [c] := fun rest =>
      splitFrom_plain (plain c (.head _)) (.inr (whole c (.head _))) rest
    exact here.append (ih (fun d member => plain d (.tail _ member))
      fun d member => whole d (.tail _ member))

theorem Stays.string {quote : Char} {inside : List Char} (quotes : isQuote quote = true)
    (quotable : IsQuotable quote inside) : Stays isSeparator depth (quote :: inside ++ [quote]) := by
  intro rest
  have begins : Mode.code.next quote = .quoted quote := by simp [Mode.next, quotes]
  rw [List.append_assoc, List.cons_append, List.singleton_append, splitFrom_quote quotes, begins,
    quotable.splitFrom_append, splitFrom_quoted (by simp), Mode.next_quoted quotes, ← prepend_append,
    ← prepend_append]
  rfl

/-- Brackets around a text that stays in one piece between them. -/
theorem Stays.brackets {opener closer : Char} {inside : List Char}
    (pair : closerOf? opener = some closer) (stays : Stays isSeparator (depth + 1) inside) :
    Stays isSeparator depth (opener :: inside ++ [closer]) := fun rest => by
  obtain ⟨closes, unopened⟩ := isCloser_of_pair pair
  have returns : depth + 1 - 1 = depth := by omega
  rw [List.append_assoc, List.cons_append, splitFrom_opener (isOpener_of_pair pair), stays,
    List.singleton_append, splitFrom_closer unopened closes, returns, ← prepend_append,
    ← prepend_append]
  rfl

/-- Nothing is split between brackets. -/
theorem IsNested.stays {cs : List Char} (nested : IsNested cs) (deep : 0 < depth) :
    Stays isSeparator depth cs := by
  induction nested generalizing depth with
  | nil => exact .nil
  | @plain c cs plain _ ih =>
    have here : Stays isSeparator depth [c] := fun rest => splitFrom_plain plain (.inl (by omega)) rest
    exact here.append (ih deep)
  | @string quote inside cs quotes quotable _ ih =>
    simpa using (Stays.string quotes quotable).append (ih deep)
  | @group opener closer inside cs pair _ _ inner ih =>
    have whole := (Stays.brackets pair (inner (show 0 < depth + 1 by omega))).append (ih deep)
    simpa using whole

theorem Stays.group {opener closer : Char} {inside : List Char}
    (pair : closerOf? opener = some closer) (nested : IsNested inside) (level : 0 ≤ depth) :
    Stays isSeparator depth (opener :: inside ++ [closer]) :=
  .brackets pair (nested.stays (by omega))

theorem splitFrom_separator {c : Char} (separates : isSeparator c = true) (plain : isPlain c = true)
    (cs : List Char) :
    splitFrom isSeparator .code 0 (c :: cs) = [] :: splitFrom isSeparator .code 0 cs := by
  simp only [isPlain, Bool.and_eq_true, Bool.not_eq_true'] at plain
  obtain ⟨⟨unquoted, unopened⟩, unclosed⟩ := plain
  rw [splitFrom]
  simp only [unquoted, unopened, unclosed, separates, and_self, Bool.false_eq_true, and_false,
    if_false, if_true]

/-- A trimmed text that no comma divides. -/
structure IsArgument (cs : List Char) : Prop where
  held : cs ≠ []
  trimmed : IsTrimmed cs
  stays : Stays (· = ',') 0 cs

/-- Items that stay in one piece are split at the commas between them. -/
theorem splitCommas_items {front gap : List Char} {items : List (List Char)}
    (held : trim front ≠ []) (first : Stays (· = ',') 0 front)
    (each : ∀ item ∈ items, IsArgument item)
    (blank : ∀ c ∈ gap, isBlank c = true) :
    splitCommas (front ++ (items.flatMap (fun item => ',' :: ' ' :: item) ++ gap)) =
      trim front :: items := by
  have apart : ∀ c ∈ gap, decide (c = ',') = false := by
    intro c member
    rw [decide_eq_false_iff_not]
    rintro rfl
    cases blank _ member
  have pieces : (splitFrom (· = ',') .code 0
      (front ++ (items.flatMap (fun item => ',' :: ' ' :: item) ++ gap))).map trim =
        trim front :: items := by
    clear held
    -- The piece in front is general: it is the item before together with the blank behind a comma.
    induction items generalizing front with
    | nil =>
      rw [List.flatMap_nil, List.nil_append, first, splitFrom_whole apart]
      simp [prepend, trim_append_right blank]
    | cons item items ih =>
      have here := each item (.head _)
      have space : Stays (fun c => decide (c = ',')) 0 [' '] := .plain (by decide) (by decide)
      have later := ih (space.append here.stays) fun other member => each other (.tail _ member)
      rw [trim_append (by decide), trim_eq_self here.trimmed] at later
      rw [first, List.flatMap_cons, List.append_assoc, List.cons_append,
        splitFrom_separator (by decide) (by decide), prepend, List.append_nil, List.map_cons]
      exact congrArg _ later
  have solid : ∀ item ∈ trim front :: items, (!item.isEmpty) = true := by
    intro item member
    rcases List.mem_cons.mp member with rfl | behind
    · simpa using held
    · simpa using (each item behind).held
  rw [splitCommas, splitTopLevel, pieces, List.filter_eq_self.mpr solid]

theorem intercalate_cons (gap first : List Char) (pieces : List (List Char)) :
    gap.intercalate (first :: pieces) = first ++ pieces.flatMap (gap ++ ·) := by
  induction pieces generalizing first with
  | nil => simp [List.intercalate_singleton]
  | cons piece pieces ih => simp [List.intercalate_cons_cons, ih]

theorem splitCommas_arguments {arguments : List (List Char)}
    (each : ∀ argument ∈ arguments, IsArgument argument) :
    splitCommas ([',', ' '].intercalate arguments) = arguments := by
  cases arguments with
  | nil => rfl
  | cons first arguments =>
    have front := each first (.head _)
    have trimmed := trim_eq_self front.trimmed
    have split := splitCommas_items (by rw [trimmed]; exact front.held) front.stays
      (fun argument member => each argument (.tail _ member)) (List.forall_mem_nil _)
    rw [trimmed, List.append_nil] at split
    rw [intercalate_cons]
    exact split

theorem isTrimmed_between {first last : Char} (solid : isBlank first = false)
    (solid' : isBlank last = false) (inside : List Char) :
    IsTrimmed (first :: inside ++ [last]) := by
  refine ⟨?_, fun c ends => ?_⟩
  · rintro _ ⟨⟩
    exact solid
  · rw [List.getLast?_concat] at ends
    cases ends
    exact solid'

namespace IsArgument

variable {cs : List Char}

theorem splitCommas_eq (isArgument : IsArgument cs) : splitCommas cs = [cs] := by
  have split := splitCommas_arguments (List.forall_mem_singleton.mpr isArgument)
  rwa [List.intercalate_singleton] at split

theorem string {quote : Char} (quotes : isQuote quote = true) {inside : List Char}
    (quotable : IsQuotable quote inside) : IsArgument (quote :: inside ++ [quote]) := by
  have solid : isBlank quote = false := by
    simp only [isQuote, Bool.or_eq_true, decide_eq_true_eq] at quotes
    rcases quotes with (rfl | rfl) | rfl <;> rfl
  exact ⟨by simp, isTrimmed_between solid solid inside, .string quotes quotable⟩

theorem list {inside : List Char} (nested : IsNested inside) :
    IsArgument ('[' :: inside ++ [']']) :=
  ⟨by simp, isTrimmed_between (by decide) (by decide) inside, .group rfl nested (by decide)⟩

theorem word (word : IsWordText cs) : IsArgument cs where
  held := word.1
  trimmed := ⟨fun c first => word.solid c (List.mem_of_head? first),
    fun c last => word.solid c (List.mem_of_getLast? last)⟩
  stays := .plain (fun c member => isPlain_of_isWord (word.2 c member)) fun c member =>
    decide_eq_false fun same => word.not_mem (by decide) (same ▸ member)

/-- An argument behind a key. -/
theorem behind_key (isArgument : IsArgument cs) {key : List Char} (word : IsWordText key) :
    IsArgument (key ++ ':' :: ' ' :: cs) where
  held := by simp
  trimmed := by
    refine ⟨isBlank_head?_word word _, fun c last => isArgument.trimmed.2 c ?_⟩
    obtain ⟨d, cs, rfl⟩ := List.exists_cons_of_ne_nil isArgument.held
    simpa using last
  stays := by
    have whole : key ++ ':' :: ' ' :: cs = (key ++ [':', ' ']) ++ cs := by simp
    have plain : ∀ c ∈ key ++ [':', ' '], isPlain c = true ∧ decide (c = ',') = false := by
      intro c member
      rcases List.mem_append.mp member with inside | mark
      · have letter := word.2 c inside
        refine ⟨isPlain_of_isWord letter, decide_eq_false ?_⟩
        rintro rfl
        cases letter
      · rcases List.mem_pair.mp mark with rfl | rfl <;> exact ⟨rfl, rfl⟩
    rw [whole]
    exact .append (.plain (fun c member => (plain c member).1) fun c member => (plain c member).2)
      isArgument.stays

end IsArgument

end SchemaAtlas.Text
