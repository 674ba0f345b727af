import SchemaAtlas.Proofs.Text.Pieces
import SchemaAtlas.Proofs.Text.Renamed

/-!
What a bracket and its partner enclose. The scans for partners and for separators take the same
characters for strings and brackets, so that a piece of an enclosed text closes whatever it opens.
-/

set_option autoImplicit false

namespace SchemaAtlas.Text

/-- All strings of a text end in it, and all brackets outside them have their partners in it. -/
structure SelfContained (cs : List Char) : Prop where
  strings : Mode.code.run cs = .code
  partners : ∀ (i : Nat) (opener : Char), (outline .code cs)[i]? = some (some opener) →
    isOpener opener = true → ∃ j : Nat, j < cs.length ∧ partner? cs i = .ok (some (j : Int))

/-- Where an index points in a text. An index below zero counts from the end. -/
def placeOf (cs : List Char) (index : Int) : Nat :=
  (if index < 0 then index + cs.length else index).toNat

/-- The text from one index up to another. -/
def cut (cs : List Char) (start stop : Int) : List Char :=
  (cs.take (placeOf cs stop)).drop (placeOf cs start)

/-- A piece that stands between two indices of a text, where its brackets have the partners that
they have in the piece alone. -/
def StandsBetween (cs : List Char) (i j : Nat) (piece : List Char) : Prop :=
  ∃ start, i < start ∧ start + piece.length ≤ j ∧ (cs.drop start).take piece.length = piece ∧
    ∀ k m : Nat, partner? piece k = .ok (some (m : Int)) →
      partner? cs (start + k : Nat) = .ok (some ((start + m : Nat) : Int))

section Partner

variable {cs : List Char} {i j : Nat}

theorem eq_take_append_drop {c : Char} (stands : cs[i]? = some c) :
    cs = cs.take i ++ c :: cs.drop (i + 1) := by
  obtain ⟨within, rfl⟩ := List.getElem?_eq_some_iff.mp stands
  rw [← List.drop_eq_getElem_cons within, List.take_append_drop]

theorem partner?_eq_some_iff : partner? cs i = .ok (some (j : Int)) ↔
    ∃ front opener inside closer rest, closerOf? opener = some closer ∧ IsNested inside ∧
      cs = front ++ opener :: (inside ++ closer :: rest) ∧ front.length = i ∧
      i + 1 + inside.length = j := by
  constructor
  · intro found
    have held : ∃ opener closer, cs[i]? = some opener ∧ closerOf? opener = some closer := by
      have front : ¬ (i : Int) < 0 := by omega
      simp only [partner?, front, if_false, Int.toNat_natCast] at found
      split at found
      next => cases found
      next closer pair =>
        obtain ⟨opener, stands, pair⟩ := Option.bind_eq_some_iff.mp pair
        exact ⟨opener, closer, stands, pair⟩
    obtain ⟨opener, closer, stands, pair⟩ := held
    rw [partner?_eq stands pair, Except.ok.injEq, Option.map_eq_some_iff] at found
    obtain ⟨n, offset, place⟩ := found
    obtain ⟨inside, rest, nested, split, rfl⟩ := (closeOffset?_eq_some_iff pair).mp offset
    obtain ⟨within, -⟩ := List.getElem?_eq_some_iff.mp stands
    refine ⟨cs.take i, opener, inside, closer, rest, pair, nested, ?_, ?_, by omega⟩
    · rw [← split]
      exact eq_take_append_drop stands
    · rw [List.length_take]
      omega
  · rintro ⟨front, opener, inside, closer, rest, pair, nested, rfl, rfl, rfl⟩
    have behind : (front ++ opener :: (inside ++ closer :: rest)).drop (front.length + 1) =
        inside ++ closer :: rest := by simp
    have offset := (closeOffset?_eq_some_iff pair).mpr ⟨inside, rest, nested, rfl, rfl⟩
    rw [partner?_eq (by simp) pair, behind, offset]
    rfl

/-- A bracket has the same partner in any text around. -/
theorem partner?_around (found : partner? cs i = .ok (some (j : Int))) (before behind : List Char) :
    partner? (before ++ (cs ++ behind)) (before.length + i : Nat) =
      .ok (some ((before.length + j : Nat) : Int)) := by
  obtain ⟨front, opener, inside, closer, rest, pair, nested, rfl, rfl, rfl⟩ :=
    partner?_eq_some_iff.mp found
  refine partner?_eq_some_iff.mpr ⟨before ++ front, opener, inside, closer, rest ++ behind, pair,
    nested, by simp, by simp, by omega⟩

theorem partner?_lt_length (found : partner? cs i = .ok (some (j : Int))) : j < cs.length := by
  obtain ⟨front, opener, inside, closer, rest, -, -, rfl, rfl, rfl⟩ :=
    partner?_eq_some_iff.mp found
  simp only [List.length_append, List.length_cons]
  omega

end Partner

theorem WellNested.selfContained {cs : List Char} (whole : WellNested cs) : SelfContained cs where
  strings := whole.strings
  partners i opener stands opens := by
    obtain ⟨closer, pair⟩ := Option.isSome_iff_exists.mp opens
    obtain ⟨stands, code⟩ := outside_of_outline stands
    obtain ⟨n, offset⟩ :=
      Option.isSome_iff_exists.mp (whole.closes (eq_take_append_drop stands) code pair)
    have found : partner? cs i = .ok (some ((i + 1 + n : Nat) : Int)) := by
      rw [partner?_eq stands pair, offset]
      rfl
    exact ⟨i + 1 + n, partner?_lt_length found, found⟩

section Front

variable {front tail cs : List Char}

theorem IsNested.of_append (closed : IsNested front) (nested : IsNested (front ++ cs)) :
    IsNested cs := by
  obtain ⟨strings, brackets⟩ := nested.wellNested
  rw [Mode.run_append, closed.run] at strings
  rw [outline_append, closed.run, closed.pendingBehind_outline] at brackets
  exact WellNested.isNested ⟨strings, brackets⟩

theorem SelfContained.behind (whole : SelfContained (front ++ cs))
    (code : Mode.code.run front = .code) : SelfContained cs where
  strings := by
    have strings := whole.strings
    rwa [Mode.run_append, code] at strings
  partners i opener stands opens := by
    have there : (outline .code (front ++ cs))[front.length + i]? = some (some opener) := by
      rw [outline_append, code, List.getElem?_append_right (by rw [length_outline]; omega)]
      simpa using stands
    obtain ⟨j, -, found⟩ := whole.partners _ _ there opens
    obtain ⟨closer, pair⟩ := Option.isSome_iff_exists.mp opens
    -- The search behind the bracket sees the same text in both.
    have same : (front ++ cs).drop (front.length + i + 1) = cs.drop (i + 1) := by
      rw [Nat.add_assoc, List.drop_append]
      simp
    rw [partner?_eq (outside_of_outline there).1 pair, same, Except.ok.injEq,
      Option.map_eq_some_iff] at found
    obtain ⟨n, offset, -⟩ := found
    have found : partner? cs i = .ok (some ((i + 1 + n : Nat) : Int)) := by
      rw [partner?_eq (outside_of_outline stands).1 pair, offset]
      rfl
    exact ⟨i + 1 + n, partner?_lt_length found, found⟩

theorem IsQuotable.run_ne_code {quote : Char} {inside : List Char}
    (quotable : IsQuotable quote inside) (begins : front <+: inside) :
    (Mode.quoted quote).run front ≠ .code := by
  induction quotable generalizing front with
  | nil =>
    rw [List.prefix_nil.mp begins]
    simp
  | plain other unescaped _ ih =>
    cases front with
    | nil => simp
    | cons d front =>
      obtain ⟨rfl, later⟩ := List.cons_prefix_cons.mp begins
      simpa [Mode.next, other, unescaped] using ih later
  | escaped _ ih =>
    obtain _ | ⟨d, _ | ⟨e, front⟩⟩ := front
    next => simp
    next =>
      obtain ⟨rfl, -⟩ := List.cons_prefix_cons.mp begins
      simp [Mode.next]
    next =>
      obtain ⟨rfl, escaped⟩ := List.cons_prefix_cons.mp begins
      simpa [Mode.next] using ih (List.cons_prefix_cons.mp escaped).2

/-- In front of a text that closes all, a self-contained text closes all of its own. -/
theorem SelfContained.isNested (whole : SelfContained cs) (nested : IsNested (cs ++ tail)) :
    IsNested cs := by
  generalize all : cs ++ tail = text at nested
  induction nested generalizing cs with
  | nil =>
    rw [(List.append_eq_nil_iff.mp all).1]
    exact .nil
  | plain plain _ ih =>
    cases cs with
    | nil => exact .nil
    | cons d cs =>
      obtain ⟨rfl, rest⟩ := List.cons.inj all
      have later : SelfContained ([d] ++ cs) := whole
      exact .plain plain (ih (later.behind (IsNested.plain plain .nil).run) rest)
  | @string quote inside text quotes quotable _ ih =>
    have closed : IsNested (quote :: inside ++ [quote]) := .string quotes quotable .nil
    rw [List.append_cons] at all
    obtain ⟨more, split, -⟩ | ⟨later, rfl, rest⟩ := List.append_eq_append_iff.mp all
    next =>
      cases cs with
      | nil => exact .nil
      | cons d cs =>
        obtain ⟨rfl, inner⟩ := List.cons.inj split
        -- The text does not end inside the string, which would be left open.
        have begins : cs <+: inside ++ [quote] := ⟨more, inner.symm⟩
        obtain rfl | within := List.prefix_concat_iff.mp begins
        next => exact closed
        next =>
          have strings := whole.strings
          rw [Mode.run_cons, show Mode.code.next quote = .quoted quote by simp [Mode.next, quotes]]
            at strings
          exact absurd strings (quotable.run_ne_code within)
    next =>
      rw [← List.append_cons]
      exact .string quotes quotable (ih (whole.behind closed.run) rest.symm)
  | @group opener closer inside text pair inner _ _ ih =>
    cases cs with
    | nil => exact .nil
    | cons d cs =>
      obtain ⟨rfl, rest⟩ := List.cons.inj all
      have opens := isOpener_of_pair pair
      have stands : (outline .code (d :: cs))[0]? = some (some d) := by
        rw [outline_code (isQuote_of_isOpener opens)]
        rfl
      obtain ⟨j, -, found⟩ := whole.partners 0 d stands opens
      rw [partner?_eq rfl pair, Except.ok.injEq, Option.map_eq_some_iff] at found
      obtain ⟨n, offset, -⟩ := found
      obtain ⟨inside', later, nested', split, -⟩ := (closeOffset?_eq_some_iff pair).mp offset
      obtain rfl : cs = inside' ++ closer :: later := split
      -- In the whole text the group ends at the same bracket.
      have aligned : inside' ++ closer :: (later ++ tail) = inside ++ closer :: text :=
        (List.append_assoc inside' (closer :: later) tail).symm.trans rest
      obtain ⟨rfl, behind⟩ := nested'.append_closer_inj pair inner aligned
      have closed : IsNested (d :: inside' ++ [closer]) := .group pair inner .nil
      have split : SelfContained ((d :: inside' ++ [closer]) ++ later) := by simpa using whole
      exact .group pair inner (ih (split.behind closed.run) behind)

end Front

section Pieces

variable {isSeparator : Char → Bool} {mode : Mode} {cs : List Char}

/-- The pieces of a text that closes what it enters with: the first one does so itself, and each of
the others is closed on its own. -/
theorem splitFrom_wellNested (isSeparator : Char → Bool) (pending : List Char)
    (strings : mode.run cs = .code) (brackets : pendingBehind pending (outline mode cs) = some []) :
    ∃ first later, splitFrom isSeparator mode pending.length cs = first :: later ∧
      mode.run first = .code ∧ pendingBehind pending (outline mode first) = some [] ∧
      ∀ piece ∈ later, WellNested piece := by
  -- The depth of the one scan is the number of brackets that the other one waits for.
  induction cs generalizing mode pending with
  | nil => exact ⟨[], [], rfl, strings, brackets, List.forall_mem_nil _⟩
  | cons c cs ih =>
    obtain ⟨place, line, returns, step⟩ := splitFrom_cons isSeparator mode pending.length c
    have onward (rest : List Char) : pendingBehind pending (outline mode (c :: rest)) =
        (pendingBehind pending [place]).bind (pendingBehind · (outline (mode.next c) rest)) := by
      rw [line, ← List.singleton_append, pendingBehind_append]
    rw [onward, Option.bind_eq_some_iff] at brackets
    obtain ⟨later, here, brackets⟩ := brackets
    have depth : (pending.length : Int) + deeper place = later.length := by
      simpa [depthBehind] using depthBehind_of_pendingBehind here
    obtain ⟨first, others, split, firstStrings, firstBrackets, each⟩ := ih later strings brackets
    rw [step, depth, split]
    by_cases splits : separates isSeparator pending.length place = true
    next =>
      -- A separator that counts stands in code, where nothing is open.
      have code : mode = .code := by
        by_contra inside
        have hidden : (if mode = .code ∧ isQuote c = false then some c else none) = place :=
          (List.cons.inj (line [])).1
        rw [if_neg fun plain => inside plain.1] at hidden
        subst hidden
        cases splits
      have surface : pending = [] := by
        cases place with
        | none => cases splits
        | some d =>
          simp only [separates, Bool.and_eq_true, decide_eq_true_eq] at splits
          simpa using splits.2
      have ground : later = [] := by simpa [depth] using depth_of_separates splits
      subst code surface ground
      rw [returns splits] at firstStrings firstBrackets
      rw [if_pos splits]
      refine ⟨[], first :: others, rfl, rfl, rfl, ?_⟩
      exact List.forall_mem_cons.mpr ⟨⟨firstStrings, firstBrackets⟩, each⟩
    next =>
      rw [if_neg splits]
      exact ⟨c :: first, others, rfl, firstStrings, by rw [onward, here]; exact firstBrackets, each⟩

theorem infix_of_mem_splitFrom (isSeparator : Char → Bool) (mode : Mode) (depth : Int)
    (cs : List Char) : ∃ first later, splitFrom isSeparator mode depth cs = first :: later ∧
      first <+: cs ∧ ∀ piece ∈ later, piece <:+: cs := by
  induction cs generalizing mode depth with
  | nil => exact ⟨[], [], rfl, List.prefix_rfl, List.forall_mem_nil _⟩
  | cons c cs ih =>
    obtain ⟨place, -, -, step⟩ := splitFrom_cons isSeparator mode depth c
    obtain ⟨first, later, split, front, each⟩ := ih (mode.next c) (depth + deeper place)
    have within : ∀ piece ∈ later, piece <:+: c :: cs :=
      fun piece member => List.infix_cons (each piece member)
    rw [step, split]
    split
    next =>
      exact ⟨[], first :: later, rfl, List.nil_prefix,
        List.forall_mem_cons.mpr ⟨List.infix_cons front.isInfix, within⟩⟩
    next => exact ⟨c :: first, later, rfl, List.cons_prefix_cons.mpr ⟨rfl, front⟩, within⟩

theorem Mode.Apt.run_blank {mode : Mode} (apt : mode.Apt) {gap : List Char}
    (blank : ∀ c ∈ gap, isBlank c = true) (ends : mode.run gap = .code) : mode = .code := by
  induction gap generalizing mode with
  | nil => exact ends
  | cons c gap ih =>
    have next := ih (apt.next c) (fun d member => blank d (.tail _ member)) ends
    have unquoted := isQuote_of_isPlain (isPlain_of_isBlank (blank c (.head _)))
    -- No blank ends a string.
    cases mode with
    | code => rfl
    | quoted quote =>
      rw [Mode.next] at next
      split at next
      next => cases next
      next =>
        split at next
        next same =>
          rw [same] at unquoted
          exact absurd (unquoted.symm.trans apt) Bool.false_ne_true
        next => cases next
    | escaped quote => cases next

theorem WellNested.trim (whole : WellNested cs) : WellNested (trim cs) := by
  obtain ⟨front, back, split, blank, blank'⟩ := exists_trim cs
  obtain ⟨strings, brackets⟩ := whole
  rw [split, Mode.run_append, (IsNested.of_blank blank).run, Mode.run_append] at strings
  have closed := (Mode.Apt.run Mode.apt_code (Text.trim cs)).run_blank blank' strings
  refine ⟨closed, ?_⟩
  rw [split, outline_append, (IsNested.of_blank blank).pendingBehind_outline,
    (IsNested.of_blank blank).run, outline_append, closed, pendingBehind_append] at brackets
  obtain ⟨left, scanned, rest⟩ := Option.bind_eq_some_iff.mp brackets
  have none := (IsNested.of_blank blank').pendingBehind_outline left []
  rw [List.append_nil, rest] at none
  rw [scanned]
  exact none.symm

theorem WellNested.splitTopLevel (whole : WellNested cs) {piece : List Char}
    (found : piece ∈ splitTopLevel isSeparator cs) : WellNested piece := by
  obtain ⟨raw, member, rfl⟩ := List.mem_map.mp (List.mem_filter.mp found).1
  obtain ⟨first, later, split, strings, brackets, each⟩ :=
    splitFrom_wellNested isSeparator [] whole.strings whole.brackets
  rw [show splitFrom isSeparator .code 0 cs = first :: later from split] at member
  rcases List.mem_cons.mp member with rfl | behind
  · exact WellNested.trim ⟨strings, brackets⟩
  · exact (each raw behind).trim

theorem infix_of_mem_splitTopLevel {piece : List Char}
    (found : piece ∈ splitTopLevel isSeparator cs) : piece <:+: cs := by
  obtain ⟨raw, member, rfl⟩ := List.mem_map.mp (List.mem_filter.mp found).1
  obtain ⟨first, later, split, front, each⟩ := infix_of_mem_splitFrom isSeparator .code 0 cs
  obtain ⟨gap, gap', whole, -⟩ := exists_trim raw
  have inside : trim raw <:+: raw := ⟨gap, gap', by rw [List.append_assoc, ← whole]⟩
  rw [split] at member
  rcases List.mem_cons.mp member with rfl | behind
  · exact inside.trans front.isInfix
  · exact inside.trans (each raw behind)

theorem splitFrom_never (mode : Mode) (depth : Int) (cs : List Char) :
    splitFrom (fun _ => false) mode depth cs = [cs] := by
  refine splitFrom_eq_singleton_iff.mpr fun i => ?_
  rw [separatesAt, Option.any_eq_false_iff_get]
  intro held
  cases Option.get _ held with
  | none => rfl
  | some c => simp [separates]

/-- A text with which a closed one begins is closed itself if it is self-contained undivided. -/
theorem isNested_of_piece {tail : List Char}
    (each : ∀ piece ∈ splitTopLevel (fun _ => false) cs, SelfContained piece)
    (nested : IsNested (cs ++ tail)) : IsNested cs := by
  obtain ⟨front, back, whole, blank, blank'⟩ := exists_trim cs
  have inner : IsNested (trim cs) := by
    by_cases empty : trim cs = []
    next =>
      rw [empty]
      exact .nil
    next =>
      have piece := each (trim cs) (by simp [splitTopLevel, splitFrom_never, empty])
      rw [whole, List.append_assoc, List.append_assoc] at nested
      exact piece.isNested ((IsNested.of_blank blank).of_append nested)
  rw [whole]
  exact (IsNested.of_blank blank).append (inner.append (IsNested.of_blank blank'))

end Pieces

section Enclosed

variable {front inside rest : List Char} {opener closer : Char}

theorem placeOf_natCast (cs : List Char) (i : Nat) : placeOf cs i = i := by
  rw [placeOf, if_neg (by omega), Int.toNat_natCast]

theorem placeOf_succ (cs : List Char) (i : Nat) : placeOf cs (i + 1) = i + 1 :=
  placeOf_natCast cs (i + 1)

theorem cut_inside : cut (front ++ opener :: (inside ++ closer :: rest)) (front.length + 1)
    (front.length + 1 + inside.length : Nat) = inside := by
  have whole : front ++ opener :: (inside ++ closer :: rest) =
      (front ++ opener :: inside) ++ closer :: rest := by simp
  have long : (front ++ opener :: inside).length = front.length + 1 + inside.length := by
    simp only [List.length_append, List.length_cons]
    omega
  rw [cut, placeOf_natCast, placeOf_succ, whole, ← long, List.take_left, List.append_cons]
  exact List.drop_left' (by simp)

theorem cut_group : cut (front ++ opener :: (inside ++ closer :: rest)) front.length
    ((front.length + 1 + inside.length : Nat) + 1) = opener :: inside ++ [closer] := by
  have whole : front ++ opener :: (inside ++ closer :: rest) =
      (front ++ (opener :: inside ++ [closer])) ++ rest := by simp
  have long : (front ++ (opener :: inside ++ [closer])).length =
      front.length + 1 + inside.length + 1 := by
    simp only [List.length_append, List.length_cons, List.length_nil]
    omega
  rw [cut, placeOf_natCast, placeOf_succ, whole, ← long, List.take_left, List.drop_left]

theorem standsBetween_of_infix {piece : List Char} (within : piece <:+: inside) :
    StandsBetween (front ++ opener :: (inside ++ closer :: rest)) front.length
      (front.length + 1 + inside.length) piece := by
  obtain ⟨before, behind, rfl⟩ := within
  have whole : front ++ opener :: ((before ++ piece ++ behind) ++ closer :: rest) =
      (front ++ opener :: before) ++ (piece ++ (behind ++ closer :: rest)) := by simp
  refine ⟨(front ++ opener :: before).length, ?_, ?_, ?_, fun k m found => ?_⟩
  · simp only [List.length_append, List.length_cons]
    omega
  · simp only [List.length_append, List.length_cons]
    omega
  · rw [whole, List.drop_left, List.take_left]
  · rw [whole]
    exact partner?_around found _ _

end Enclosed

section Back

variable {cs : List Char} {i : Int} {j : Nat}

theorem cut_eq_nil {start stop : Int} (before : placeOf cs stop ≤ placeOf cs start) :
    cut cs start stop = [] :=
  List.drop_eq_nil_of_le (by rw [List.length_take]; omega)

theorem placeOf_back {start : Nat} (back : i < 0) (front : (start : Int) = i + cs.length) :
    placeOf cs i = start := by
  rw [placeOf, if_pos back, ← front, Int.toNat_natCast]

/-- What closes a bracket whose index counts from the back is looked for behind it and then in the
whole text once more. -/
theorem exists_of_partner?_back (back : i < 0) (found : partner? cs i = .ok (some (j : Int))) :
    ∃ (start : Nat) (opener closer : Char) (inside rest : List Char),
      (start : Int) = i + cs.length ∧ cs[start]? = some opener ∧ closerOf? opener = some closer ∧
      IsNested inside ∧ cs.drop (start + 1) ++ cs = inside ++ closer :: rest ∧
      i + 1 + inside.length = j := by
  simp only [partner?, if_pos back] at found
  split at found
  next => cases found
  next within =>
    split at found
    next => cases found
    next closer pair =>
      obtain ⟨opener, stands, pair⟩ := Option.bind_eq_some_iff.mp pair
      obtain ⟨n, offset, place⟩ := Option.map_eq_some_iff.mp (Except.ok.inj found)
      obtain ⟨length, offset, same⟩ := Option.bind_eq_some_iff.mp offset
      obtain ⟨inside, rest, nested, split, rfl⟩ := (closeOffset?_eq_some_iff pair).mp offset
      cases same
      exact ⟨_, opener, closer, inside, rest, Int.toNat_of_nonneg (by omega), stands, pair, nested,
        split, place⟩

/-- Unless the search comes round to the bracket itself, both the group and what it encloses are
closed. -/
theorem isNested_cut (found : partner? cs i = .ok (some (j : Int)))
    (short : 0 ≤ i ∨ (j : Int) < cs.length + i) :
    IsNested (cut cs i (j + 1)) ∧ IsNested (cut cs (i + 1) j) := by
  by_cases back : i < 0
  next =>
    obtain ⟨start, opener, closer, inside, rest, front, -, -, nested, split, place⟩ :=
      exists_of_partner?_back back found
    have here := placeOf_back back front
    -- The group is empty, since it would end in front of the bracket.
    have group : cut cs i (j + 1) = [] := cut_eq_nil (by rw [placeOf_succ, here]; omega)
    rw [group]
    refine ⟨.nil, ?_⟩
    by_cases last : i + 1 = 0
    next =>
      have behind : cs.drop (start + 1) = [] := List.drop_eq_nil_of_le (by omega)
      rw [behind, List.nil_append] at split
      have long : inside.length = j := by omega
      have front : cut cs 0 j = inside := by
        rw [cut, placeOf_natCast, ← long, split, List.take_left]
        rfl
      rwa [last, front]
    next =>
      have behind : placeOf cs (i + 1) = start + 1 := placeOf_back (by omega) (by omega)
      rw [cut_eq_nil (by rw [placeOf_natCast, behind]; omega)]
      exact .nil
  next =>
    obtain ⟨i, rfl⟩ := Int.eq_ofNat_of_zero_le (Int.not_lt.mp back)
    obtain ⟨front, opener, inside, closer, rest, pair, nested, rfl, rfl, rfl⟩ :=
      partner?_eq_some_iff.mp found
    rw [cut_group, cut_inside]
    exact ⟨.group pair nested .nil, nested⟩

theorem drop_eq_append_cons {c : Char} {k : Nat} (stands : cs[j]? = some c) (front : k ≤ j) :
    cs.drop k = (cs.take j).drop k ++ c :: cs.drop (j + 1) := by
  obtain ⟨within, -⟩ := List.getElem?_eq_some_iff.mp stands
  nth_rewrite 1 [eq_take_append_drop stands]
  exact List.drop_append_of_le_length (by rw [List.length_take]; omega)

/-- If the search does come round, its bracket stands at the index found, behind the one it is
for. -/
theorem getElem?_of_round {start : Nat} {opener closer : Char} {inside rest : List Char}
    (stands : cs[start]? = some opener) (pair : closerOf? opener = some closer)
    (split : cs.drop (start + 1) ++ cs = inside ++ closer :: rest) (reaches : start ≤ j)
    (place : start + 1 + inside.length = cs.length + j) : cs[j]? = some closer ∧ start < j := by
  obtain ⟨within, -⟩ := List.getElem?_eq_some_iff.mp stands
  have closes : (cs.drop (start + 1) ++ cs)[inside.length]? = some closer := by
    rw [split, List.getElem?_append_right (Nat.le_refl _), Nat.sub_self]
    rfl
  rw [List.getElem?_append_right (by rw [List.length_drop]; omega), List.length_drop,
    show inside.length - (cs.length - (start + 1)) = j by omega] at closes
  refine ⟨closes, Nat.lt_of_le_of_ne reaches ?_⟩
  rintro rfl
  cases stands.symm.trans closes
  rw [(isCloser_of_pair pair).2] at pair
  cases pair

/-- If the search does come round, what is cut out behind the bracket is not closed: the bracket in
front of it would have been closed there. -/
theorem short_of_piece (found : partner? cs i = .ok (some (j : Int)))
    (each : ∀ piece ∈ splitTopLevel (fun _ => false) (cut cs (i + 1) j), SelfContained piece) :
    0 ≤ i ∨ (j : Int) < cs.length + i := by
  by_contra round
  obtain ⟨back, reaches⟩ := not_or.mp round
  obtain ⟨start, opener, closer, inside, rest, front, stands, pair, nested, split, place⟩ :=
    exists_of_partner?_back (Int.not_le.mp back) found
  have reached : start ≤ j := by omega
  obtain ⟨closes, behind⟩ := getElem?_of_round stands pair split reached (by omega)
  obtain ⟨within, -⟩ := List.getElem?_eq_some_iff.mp closes
  have after : placeOf cs (i + 1) = start + 1 := placeOf_back (by omega) (by omega)
  rw [cut, placeOf_natCast, after] at each
  rw [drop_eq_append_cons closes behind, List.append_assoc, List.cons_append] at split
  have length : ((cs.take j).drop (start + 1)).length ≤ j := by
    rw [List.length_drop, List.length_take]
    omega
  generalize (cs.take j).drop (start + 1) = between at each split length
  obtain ⟨tail, rfl⟩ := List.prefix_of_prefix_length_le ⟨_, split⟩ (List.prefix_append _ _)
    (by omega : between.length ≤ inside.length)
  obtain ⟨same, -⟩ := (isNested_of_piece each nested).append_closer_inj pair nested split
  rw [← same] at place
  omega

end Back

end SchemaAtlas.Text
