import Mathlib.Data.List.ReduceOption
import SchemaAtlas.Proofs.Text.Splits
import SchemaAtlas.Proofs.Text.WellNested

/-!
The pieces of a text that is split at separators outside its brackets and strings: where it is
split, that no piece can be split any further, and that nothing but separators and blanks is lost.
-/

set_option autoImplicit false

namespace SchemaAtlas.Text

/-- How many levels deeper the text behind a place lies. -/
def deeper : Option Char → Int
  | none => 0
  | some c => if isOpener c then 1 else if isCloser c then -1 else 0

/-- How many more brackets are opened than closed at some places. -/
def depthBehind (places : List (Option Char)) : Int :=
  places.foldr (fun place depth => deeper place + depth) 0

/-- Whether a text is split at a place, where the text around it lies at some depth. -/
def separates (isSeparator : Char → Bool) (depth : Int) : Option Char → Bool
  | none => false
  | some c => isPlain c && isSeparator c && depth = 0

/-- Whether a text that begins at some depth is split at its place `i`: a separator stands there, and
in front of it as many brackets are closed as are opened. -/
def separatesAt (isSeparator : Char → Bool) (depth : Int) (places : List (Option Char)) (i : Nat) :
    Bool :=
  places[i]?.any (separates isSeparator (depth + depthBehind (places.take i)))

/-- A text is not split at any of its places. -/
def Unbroken (isSeparator : Char → Bool) (depth : Int) (places : List (Option Char)) : Prop :=
  ∀ i, separatesAt isSeparator depth places i = false

def unseparatedFrom (isSeparator : Char → Bool) (mode : Mode) (depth : Int) (cs : List Char) :
    List Char :=
  (cs.mapIdx fun i c =>
    if separatesAt isSeparator depth (outline mode cs) i then none else some c).reduceOption

/-- A text without the separators that it is split at. -/
def unseparated (isSeparator : Char → Bool) (cs : List Char) : List Char :=
  unseparatedFrom isSeparator .code 0 cs

variable {isSeparator : Char → Bool} {mode : Mode} {depth : Int} {place : Option Char}
  {places : List (Option Char)} {cs : List Char}

theorem depthBehind_cons : depthBehind (place :: places) = deeper place + depthBehind places :=
  rfl

theorem separatesAt_zero :
    separatesAt isSeparator depth (place :: places) 0 = separates isSeparator depth place := by
  simp [separatesAt, depthBehind]

theorem separatesAt_succ (i : Nat) : separatesAt isSeparator depth (place :: places) (i + 1) =
    separatesAt isSeparator (depth + deeper place) places i := by
  rw [separatesAt, separatesAt, List.getElem?_cons_succ, List.take_succ_cons, depthBehind_cons,
    Int.add_assoc]

theorem splitFrom_code {c : Char} (unquoted : isQuote c = false) (cs : List Char) :
    splitFrom isSeparator .code depth (c :: cs) =
      if separates isSeparator depth (some c) then
        [] :: splitFrom isSeparator .code (depth + deeper (some c)) cs
      else prepend [c] (splitFrom isSeparator .code (depth + deeper (some c)) cs) := by
  by_cases opener : isOpener c = true
  next => simp [separates, isPlain, deeper, opener, splitFrom_opener opener]
  next =>
    have unopened : closerOf? c = none := by simpa [isOpener] using opener
    by_cases closer : isCloser c = true
    next =>
      simp [separates, isPlain, deeper, opener, closer, splitFrom_closer unopened closer,
        Int.sub_eq_add_neg]
    next =>
      have plain : isPlain c = true := by simp [isPlain, unquoted, opener, closer]
      have level : depth + deeper (some c) = depth := by simp [deeper, opener, closer]
      rw [level]
      by_cases surface : depth = 0
      next =>
        subst surface
        by_cases separator : isSeparator c = true
        next => simp [separates, plain, separator, splitFrom_separator separator plain]
        next => simp [separates, separator, splitFrom_plain plain (.inr (by simpa using separator))]
      next => simp [separates, surface, splitFrom_plain plain (.inl surface)]

theorem depth_of_separates (splits : separates isSeparator depth place = true) :
    depth + deeper place = 0 := by
  cases place with
  | none => cases splits
  | some c =>
    obtain ⟨⟨plain, -⟩, rfl⟩ : (isPlain c = true ∧ isSeparator c = true) ∧ depth = 0 := by
      simpa [separates] using splits
    simp only [isPlain, Bool.and_eq_true, Bool.not_eq_true'] at plain
    simp [deeper, plain.1.2, plain.2]

theorem splitFrom_cons (isSeparator : Char → Bool) (mode : Mode) (depth : Int) (c : Char) :
    ∃ place, (∀ cs, outline mode (c :: cs) = place :: outline (mode.next c) cs) ∧
      (separates isSeparator depth place = true → mode.next c = .code) ∧
      ∀ cs, splitFrom isSeparator mode depth (c :: cs) =
        if separates isSeparator depth place then
          [] :: splitFrom isSeparator (mode.next c) (depth + deeper place) cs
        else prepend [c] (splitFrom isSeparator (mode.next c) (depth + deeper place) cs) := by
  -- Only what stands outside strings is a place of its own.
  by_cases outside : mode = .code ∧ isQuote c = false
  next =>
    obtain ⟨rfl, unquoted⟩ := outside
    rw [Mode.next_code unquoted]
    refine ⟨some c, fun cs => ?_, fun _ => rfl, fun cs => splitFrom_code unquoted cs⟩
    rw [outline_code unquoted]
  next =>
    have line (cs : List Char) : outline mode (c :: cs) = none :: outline (mode.next c) cs := by
      rw [outline, if_neg outside]
    have never : separates isSeparator depth none = true → mode.next c = .code := by
      intro splits
      cases splits
    refine ⟨none, line, never, fun cs => ?_⟩
    have hidden : splitFrom isSeparator mode depth (c :: cs) =
        prepend [c] (splitFrom isSeparator (mode.next c) depth cs) := by
      by_cases code : mode = .code
      next =>
        subst code
        exact splitFrom_quote (by simpa using outside) cs
      next => exact splitFrom_quoted code c cs
    simpa [separates, deeper] using hidden

theorem unbroken_nil : Unbroken isSeparator depth [] := fun _ => rfl

theorem unbroken_cons : Unbroken isSeparator depth (place :: places) ↔
    separates isSeparator depth place = false ∧
      Unbroken isSeparator (depth + deeper place) places := by
  constructor
  next =>
    intro unbroken
    refine ⟨separatesAt_zero.symm.trans (unbroken 0), fun i => ?_⟩
    exact (separatesAt_succ i).symm.trans (unbroken (i + 1))
  next =>
    intro ⟨here, later⟩ i
    cases i with
    | zero => exact separatesAt_zero.trans here
    | succ i => exact (separatesAt_succ i).trans (later i)

theorem unbroken_append {front rest : List (Option Char)} :
    Unbroken isSeparator depth (front ++ rest) ↔ Unbroken isSeparator depth front ∧
      Unbroken isSeparator (depth + depthBehind front) rest := by
  induction front generalizing depth with
  | nil => simp [unbroken_nil, depthBehind]
  | cons place front ih =>
    rw [List.cons_append, unbroken_cons, unbroken_cons, ih, depthBehind_cons, Int.add_assoc,
      and_assoc]

theorem splitFrom_append (unbroken : Unbroken isSeparator depth (outline mode cs))
    (rest : List Char) : splitFrom isSeparator mode depth (cs ++ rest) = prepend cs
      (splitFrom isSeparator (mode.run cs) (depth + depthBehind (outline mode cs)) rest) := by
  induction cs generalizing mode depth with
  | nil => simp [depthBehind, outline, prepend_nil (splitFrom_ne_nil _ _)]
  | cons c cs ih =>
    obtain ⟨place, line, -, step⟩ := splitFrom_cons isSeparator mode depth c
    rw [line, unbroken_cons] at unbroken
    rw [List.cons_append, step, unbroken.1, if_neg Bool.false_ne_true, ih unbroken.2, line,
      depthBehind_cons, Int.add_assoc, ← prepend_append]
    rfl

/-- No piece is split at any of its places. -/
theorem splitFrom_pieces (isSeparator : Char → Bool) (mode : Mode) (depth : Int) (cs : List Char) :
    ∃ first later, splitFrom isSeparator mode depth cs = first :: later ∧
      Unbroken isSeparator depth (outline mode first) ∧
      ∀ piece ∈ later, Unbroken isSeparator 0 (outline .code piece) := by
  induction cs generalizing mode depth with
  | nil => exact ⟨[], [], rfl, unbroken_nil, by simp⟩
  | cons c cs ih =>
    obtain ⟨place, line, returns, step⟩ := splitFrom_cons isSeparator mode depth c
    obtain ⟨first, later, split, here, each⟩ := ih (mode.next c) (depth + deeper place)
    rw [step, split]
    by_cases splits : separates isSeparator depth place = true
    next =>
      -- The first piece ends here, and the next begins outside strings and brackets.
      rw [returns splits, depth_of_separates splits] at here
      rw [if_pos splits]
      refine ⟨[], first :: later, rfl, unbroken_nil, ?_⟩
      simpa using ⟨here, each⟩
    next =>
      rw [if_neg splits]
      refine ⟨c :: first, later, rfl, ?_, each⟩
      rw [line, unbroken_cons]
      exact ⟨by simpa using splits, here⟩

theorem splitFrom_eq_singleton_iff :
    splitFrom isSeparator mode depth cs = [cs] ↔ Unbroken isSeparator depth (outline mode cs) := by
  constructor
  next =>
    intro whole
    obtain ⟨first, later, split, unbroken, -⟩ := splitFrom_pieces isSeparator mode depth cs
    cases split.symm.trans whole
    exact unbroken
  next =>
    intro unbroken
    have alone := splitFrom_append unbroken []
    rw [List.append_nil, splitFrom, prepend, List.append_nil] at alone
    exact alone

instance : Decidable (Unbroken isSeparator depth (outline mode cs)) :=
  decidable_of_iff _ splitFrom_eq_singleton_iff

theorem flatten_prepend (front : List Char) (pieces : List (List Char)) :
    (prepend front pieces).flatten = front ++ pieces.flatten := by
  cases pieces <;> simp [prepend]

theorem flatten_splitFrom (mode : Mode) (depth : Int) (cs : List Char) :
    (splitFrom isSeparator mode depth cs).flatten = unseparatedFrom isSeparator mode depth cs := by
  induction cs generalizing mode depth with
  | nil => rfl
  | cons c cs ih =>
    obtain ⟨place, line, -, step⟩ := splitFrom_cons isSeparator mode depth c
    have later := ih (mode.next c) (depth + deeper place)
    rw [unseparatedFrom] at later
    rw [step, unseparatedFrom, line, List.mapIdx_cons]
    simp only [separatesAt_zero, separatesAt_succ]
    by_cases splits : separates isSeparator depth place = true
    next =>
      rw [if_pos splits, if_pos splits, List.reduceOption_cons_of_none, ← later, List.flatten_cons,
        List.nil_append]
    next =>
      rw [if_neg splits, if_neg splits, List.reduceOption_cons_of_some, ← later, flatten_prepend]
      rfl

/-- The characters of a text that are no blanks. -/
def solid (cs : List Char) : List Char := cs.filter (!isBlank ·)

theorem solid_trim (cs : List Char) : solid (trim cs) = solid cs := by
  obtain ⟨front, back, whole, blank, blank'⟩ := exists_trim cs
  have hollow {gap : List Char} (blank : ∀ c ∈ gap, isBlank c = true) :
      gap.filter (!isBlank ·) = [] := by
    rw [List.filter_eq_nil_iff]
    simpa using blank
  nth_rewrite 2 [whole]
  rw [solid, solid, List.filter_append, List.filter_append, hollow blank, hollow blank',
    List.nil_append, List.append_nil]

theorem solid_splitTopLevel (cs : List Char) :
    solid (splitTopLevel isSeparator cs).flatten = solid (unseparated isSeparator cs) := by
  have each : (splitFrom isSeparator .code 0 cs).map (solid ∘ trim) =
      (splitFrom isSeparator .code 0 cs).map solid :=
    List.map_congr_left fun piece _ => solid_trim piece
  rw [splitTopLevel, List.flatten_filter_not_isEmpty, solid, List.filter_flatten, List.map_map]
  change ((splitFrom isSeparator .code 0 cs).map (solid ∘ trim)).flatten = _
  rw [each, unseparated, ← flatten_splitFrom, solid, List.filter_flatten]
  rfl

theorem depthBehind_of_pendingBehind {pending left : List Char}
    (scanned : pendingBehind pending places = some left) :
    pending.length + depthBehind places = left.length := by
  fun_induction pendingBehind pending places with
  | case1 =>
    cases scanned
    exact Int.add_zero _
  | case2 _ _ ih => simpa [depthBehind_cons, deeper] using ih scanned
  | case3 pending c places closer pair ih =>
    have later := ih scanned
    have opener := isOpener_of_pair pair
    simp only [depthBehind_cons, deeper, opener, if_true, List.length_cons] at later ⊢
    omega
  | case4 => cases scanned
  | case5 places c outer unopened closes ih =>
    have later := ih scanned
    have opener : isOpener c = false := by simp [isOpener, unopened]
    simp only [depthBehind_cons, deeper, opener, closes, if_true, Bool.false_eq_true, if_false,
      List.length_cons] at later ⊢
    omega
  | case6 => cases scanned
  | case7 pending c places unopened closes ih =>
    have opener : isOpener c = false := by simp [isOpener, unopened]
    simpa [depthBehind_cons, deeper, opener, closes] using ih scanned

theorem WellNested.depthBehind_eq_zero (whole : WellNested cs) :
    depthBehind (outline .code cs) = 0 := by
  simpa using depthBehind_of_pendingBehind whole.brackets

theorem Unbroken.trim (unbroken : Unbroken isSeparator 0 (outline .code cs)) :
    Unbroken isSeparator 0 (outline .code (trim cs)) := by
  obtain ⟨front, back, whole, blank, -⟩ := exists_trim cs
  have gap : WellNested front := (IsNested.of_blank blank).wellNested
  rw [whole, outline_append, outline_append, unbroken_append, gap.strings,
    gap.depthBehind_eq_zero, unbroken_append] at unbroken
  exact unbroken.2.1

/-- A text that can be a piece: trimmed and not empty, with its strings closed and as many brackets
closed as are opened, and with no comma outside of both. -/
structure IsPiece (piece : List Char) : Prop where
  held : piece ≠ []
  trimmed : IsTrimmed piece
  strings : Mode.code.run piece = .code
  brackets : depthBehind (outline .code piece) = 0
  unbroken : Unbroken (· = ',') 0 (outline .code piece)

instance : DecidablePred IsPiece := fun piece =>
  decidable_of_iff (piece ≠ [] ∧ trim piece = piece ∧ Mode.code.run piece = .code ∧
      depthBehind (outline .code piece) = 0 ∧ Unbroken (· = ',') 0 (outline .code piece))
    ⟨fun ⟨held, trimmed, strings, brackets, unbroken⟩ =>
      ⟨held, trimmed ▸ isTrimmed_trim piece, strings, brackets, unbroken⟩,
      fun ⟨held, trimmed, strings, brackets, unbroken⟩ =>
      ⟨held, trim_eq_self trimmed, strings, brackets, unbroken⟩⟩

theorem IsPiece.stays {piece : List Char} (isPiece : IsPiece piece) : Stays (· = ',') 0 piece := by
  intro rest
  have step := splitFrom_append isPiece.unbroken rest
  rwa [isPiece.strings, isPiece.brackets] at step

theorem IsPiece.isArgument {piece : List Char} (isPiece : IsPiece piece) : IsArgument piece :=
  ⟨isPiece.held, isPiece.trimmed, isPiece.stays⟩

theorem splitCommas_intercalate {pieces : List (List Char)}
    (each : ∀ piece ∈ pieces, IsPiece piece) :
    splitCommas ([',', ' '].intercalate pieces) = pieces :=
  splitCommas_arguments fun piece member => (each piece member).isArgument

theorem splitTopLevel_piece {piece : List Char} (found : piece ∈ splitTopLevel isSeparator cs) :
    piece ≠ [] ∧ IsTrimmed piece ∧ splitTopLevel isSeparator piece = [piece] := by
  obtain ⟨inside, held⟩ := List.mem_filter.mp found
  obtain ⟨raw, member, rfl⟩ := List.mem_map.mp inside
  have trimmed := isTrimmed_trim raw
  have unbroken : Unbroken isSeparator 0 (outline .code raw) := by
    obtain ⟨first, later, split, here, each⟩ := splitFrom_pieces isSeparator .code 0 cs
    rw [split] at member
    rcases List.mem_cons.mp member with rfl | behind
    next => exact here
    next => exact each raw behind
  refine ⟨by simpa using held, trimmed, ?_⟩
  rw [splitTopLevel, splitFrom_eq_singleton_iff.mpr unbroken.trim, List.map_singleton,
    trim_eq_self trimmed, List.filter_singleton, held]
  rfl

/-- Pieces that are joined by commas are split again. The pieces of any text cannot be split any
further, and hold all of it but blanks and the separators that it is split at. -/
theorem splitting_undoes_joining :
    (∀ pieces : List (List Char), (∀ piece ∈ pieces, IsPiece piece) →
      splitCommas ([',', ' '].intercalate pieces) = pieces) ∧
    ∀ (separator : Char) (cs : List Char),
      (∀ piece ∈ splitTopLevel (· = separator) cs,
        piece ≠ [] ∧ IsTrimmed piece ∧ splitTopLevel (· = separator) piece = [piece]) ∧
      solid (splitTopLevel (· = separator) cs).flatten = solid (unseparated (· = separator) cs) := by
  refine ⟨fun pieces each => splitCommas_intercalate each, fun separator cs => ⟨?_, ?_⟩⟩
  next => exact fun piece found => splitTopLevel_piece found
  next => exact solid_splitTopLevel cs

def relationParts : List (List Char) :=
  ["fields: [a, b]".toList, "map: \"a, (b\"".toList, "references: [c, d]".toList]

theorem splitting_undoes_joining_relation : (∀ piece ∈ relationParts, IsPiece piece) ∧
    splitCommas "fields: [a, b], map: \"a, (b\", references: [c, d]".toList = relationParts := by
  have each : ∀ piece ∈ relationParts, IsPiece piece := by decide +kernel
  exact ⟨each, splitting_undoes_joining.1 relationParts each⟩

end SchemaAtlas.Text
