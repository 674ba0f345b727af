import Mathlib.Data.Option.Basic
import SchemaAtlas.Proofs.Pairs
import SchemaAtlas.Proofs.Text.Nesting
import SchemaAtlas.Proofs.Text.Runs
import SchemaAtlas.Text.Block
import SchemaAtlas.Text.Comment

/-!
Texts that differ in carriage returns in front of line feeds. What is looked for in a text and
neither begins at a line break nor holds one is found in both alike.
-/

set_option autoImplicit false

namespace SchemaAtlas.Text

/-- A text, and the same text with a carriage return in front of some of its line feeds. -/
inductive Refed : List Char → List Char → Prop
  | nil : Refed [] []
  | same (c : Char) {as bs : List Char} (rest : Refed as bs) : Refed (c :: as) (c :: bs)
  | feed {as bs : List Char} (rest : Refed as bs) : Refed ('\n' :: as) ('\r' :: '\n' :: bs)

/-- The text with a carriage return in front of every line feed. -/
def withReturns : List Char → List Char
  | [] => []
  | c :: cs => if c = '\n' then '\r' :: '\n' :: withReturns cs else c :: withReturns cs

/-- Whether a character ends a line in some way of ending lines. -/
def isFeed (c : Char) : Bool := c = '\n' || c = '\r'

variable {as bs : List Char}

namespace Refed

theorem withReturns (cs : List Char) : Refed cs (withReturns cs) := by
  induction cs with
  | nil => exact .nil
  | cons c cs ih =>
    rw [Text.withReturns]
    split
    next breaks =>
      rw [breaks]
      exact .feed ih
    next => exact .same c ih

protected theorem refl (cs : List Char) : Refed cs cs := by
  induction cs with
  | nil => exact .nil
  | cons c cs ih => exact .same c ih

theorem append {cs ds : List Char} (first : Refed as bs) (second : Refed cs ds) :
    Refed (as ++ cs) (bs ++ ds) := by
  induction first with
  | nil => exact second
  | same c _ ih => exact .same c ih
  | feed _ ih => exact .feed ih

theorem isEmpty_eq (refed : Refed as bs) : as.isEmpty = bs.isEmpty := by
  cases refed <;> rfl

theorem count_feeds (refed : Refed as bs) : as.count '\n' = bs.count '\n' := by
  induction refed with
  | nil => rfl
  | same c _ ih => simp [List.count_cons, ih]
  | feed _ ih => simp [ih]

/-- What is dropped from the front is dropped from both, if line breaks are among it. -/
theorem dropWhile (refed : Refed as bs) {members : Char → Bool}
    (breaks : ∀ c, isFeed c = true → members c = true) :
    Refed (as.dropWhile members) (bs.dropWhile members) := by
  have feeds : members '\n' = true ∧ members '\r' = true := ⟨breaks _ rfl, breaks _ rfl⟩
  induction refed with
  | nil => exact .nil
  | @same c as bs rest ih =>
    rw [List.dropWhile_cons, List.dropWhile_cons]
    split
    next => exact ih
    next => exact .same c rest
  | feed _ ih => simpa [feeds] using ih

theorem takeWhile (refed : Refed as bs) {members : Char → Bool}
    (breaks : ∀ c, isFeed c = true → members c = true) :
    Refed (as.takeWhile members) (bs.takeWhile members) := by
  have feeds : members '\n' = true ∧ members '\r' = true := ⟨breaks _ rfl, breaks _ rfl⟩
  induction refed with
  | nil => exact .nil
  | @same c as bs rest ih =>
    rw [List.takeWhile_cons, List.takeWhile_cons]
    split
    next => exact .same c ih
    next => exact .nil
  | feed _ ih => simpa [feeds] using ih.feed

/-- A mark is found in both texts or in neither. -/
theorem dropUntil (refed : Refed as bs) (mark : Char) (solid : isFeed mark = false) :
    (as.dropWhile (· ≠ mark) = [] ∧ bs.dropWhile (· ≠ mark) = []) ∨
      ∃ cs ds, as.dropWhile (· ≠ mark) = mark :: cs ∧ bs.dropWhile (· ≠ mark) = mark :: ds ∧
        Refed cs ds := by
  simp only [isFeed, Bool.or_eq_false_iff, decide_eq_false_iff_not] at solid
  induction refed with
  | nil => exact .inl ⟨rfl, rfl⟩
  | @same c as bs rest ih =>
    by_cases here : c = mark
    · exact .inr ⟨as, bs, by simp [here], by simp [here], rest⟩
    · simpa [here] using ih
  | feed _ ih => simpa [Ne.symm solid.1, Ne.symm solid.2] using ih

theorem trimLeft (refed : Refed as bs) : Refed (trimLeft as) (trimLeft bs) :=
  refed.dropWhile fun c breaks => by
    simp only [isFeed, Bool.or_eq_true, decide_eq_true_eq] at breaks
    rcases breaks with rfl | rfl <;> rfl

end Refed

theorem trimRight_cons (c : Char) (cs : List Char) : trimRight (c :: cs) =
    if (trimRight cs).isEmpty && isBlank c then [] else c :: trimRight cs := by
  rw [trimRight, trimRight, List.reverse_cons, List.dropWhile_append]
  by_cases rest : (cs.reverse.dropWhile isBlank) = []
  · by_cases blank : isBlank c = true <;> simp [rest, blank]
  · simp [rest]

theorem Refed.trimRight (refed : Refed as bs) : Refed (trimRight as) (trimRight bs) := by
  have feeds : isBlank '\n' = true ∧ isBlank '\r' = true := by decide
  induction refed with
  | nil => exact .nil
  | @same c as bs _ ih =>
    rw [trimRight_cons, trimRight_cons, ih.isEmpty_eq]
    split
    next => exact .nil
    next => exact .same c ih
  | @feed as bs _ ih =>
    rw [trimRight_cons, trimRight_cons, trimRight_cons, ih.isEmpty_eq]
    by_cases ends : (Text.trimRight bs).isEmpty = true
    · simp [ends, feeds, Refed.nil]
    · simpa [ends, feeds] using ih.feed

theorem Refed.trim (refed : Refed as bs) : Refed (trim as) (trim bs) := refed.trimLeft.trimRight

/-- A mode that a scan from outside strings can be in: only quotes begin strings. -/
def Mode.Apt : Mode → Prop
  | .code => True
  | .quoted quote => isQuote quote = true
  | .escaped quote => isQuote quote = true

theorem Mode.apt_code : Mode.code.Apt := trivial

theorem Mode.Apt.next {mode : Mode} (apt : mode.Apt) (c : Char) : (mode.next c).Apt := by
  cases mode with
  | code =>
    rw [Mode.next]
    split
    next quotes => exact quotes
    next => trivial
  | quoted quote =>
    rw [Mode.next]
    split
    next => exact apt
    next =>
      split
      next => trivial
      next => exact apt
  | escaped quote => exact apt

/-- A line feed leaves a scan where a carriage return in front of it leads. -/
theorem Mode.Apt.next_feed {mode : Mode} (apt : mode.Apt) :
    (mode.next '\r').next '\n' = mode.next '\n' := by
  have stays {quote : Char} (quotes : isQuote quote = true) {c : Char} (feed : isFeed c = true) :
      (Mode.quoted quote).next c = .quoted quote := by
    simp only [isFeed, Bool.or_eq_true, decide_eq_true_eq] at feed
    have other : c ≠ quote ∧ c ≠ '\\' := by
      rcases feed with rfl | rfl <;> exact ⟨fun same => absurd (same ▸ quotes) (by decide), by decide⟩
    simp [Mode.next, other]
  cases mode with
  | code => rfl
  | quoted quote => rw [stays apt rfl, stays apt rfl]
  | escaped quote =>
    have leaves (c : Char) : (Mode.escaped quote).next c = .quoted quote := rfl
    rw [leaves, leaves, stays apt rfl]

/-- A text that does not begin with a line feed begins with the same character as its partner. -/
theorem Refed.of_cons {c : Char} (refed : Refed (c :: as) bs) (other : c ≠ '\n') :
    ∃ cs, bs = c :: cs ∧ Refed as cs := by
  cases refed with
  | same _ rest => exact ⟨_, rfl, rest⟩
  | feed => exact absurd rfl other

theorem Refed.cons_of {c : Char} (refed : Refed as (c :: bs)) (other : c ≠ '\r') :
    ∃ cs, as = c :: cs ∧ Refed cs bs := by
  cases refed with
  | same _ rest => exact ⟨_, rfl, rest⟩
  | feed => exact absurd rfl other

theorem Refed.stripFrom {region : Region} (apt : ∀ mode, region = .text mode → mode.Apt)
    (refed : Refed as bs) : Refed (stripFrom region as) (stripFrom region bs) := by
  have code : ∀ mode, Region.text .code = .text mode → mode.Apt := by
    rintro _ ⟨⟩
    trivial
  fun_induction Text.stripFrom region as generalizing bs with
  | case1 region =>
    cases refed
    rw [Text.stripFrom]
    exact .nil
  | case2 cs ih =>
    obtain ⟨_, rfl, behind⟩ := refed.of_cons (by decide)
    obtain ⟨ds, rfl, rest⟩ := behind.of_cons (by decide)
    exact ih (by rintro _ ⟨⟩) rest
  | case3 cs ih =>
    obtain ⟨_, rfl, behind⟩ := refed.of_cons (by decide)
    obtain ⟨ds, rfl, rest⟩ := behind.of_cons (by decide)
    exact ih (by rintro _ ⟨⟩) rest
  | case4 mode c cs slash star ih =>
    have inside := apt mode rfl
    have next (d : Char) : ∀ other, Region.text (mode.next d) = .text other → other.Apt := by
      rintro _ ⟨⟩
      exact inside.next d
    cases refed with
    | @same _ _ ds rest =>
      have begins : mode = .code → c = '/' → ds.head? ≠ some '/' ∧ ds.head? ≠ some '*' := by
        intro inCode first
        constructor <;> intro second <;> obtain ⟨more, rfl⟩ := List.head?_eq_some_iff.mp second
        · obtain ⟨back, rfl, -⟩ := rest.cons_of (by decide)
          exact slash back inCode first rfl
        · obtain ⟨back, rfl, -⟩ := rest.cons_of (by decide)
          exact star back inCode first rfl
      rw [stripFrom_text begins]
      exact .same c (ih (next c) rest)
    | @feed _ ds rest =>
      rw [stripFrom_text (by simp), stripFrom_text (by simp), inside.next_feed]
      exact .feed (ih (next '\n') rest)
  | case5 cs ih =>
    cases refed with
    | same _ rest =>
      rw [Text.stripFrom, if_pos rfl]
      exact .same _ (ih code rest)
    | feed rest =>
      rw [Text.stripFrom, if_neg (by decide), Text.stripFrom, if_pos rfl]
      exact .same _ (ih code rest)
  | case6 c cs other ih =>
    obtain ⟨ds, rfl, rest⟩ := refed.of_cons other
    rw [Text.stripFrom, if_neg other]
    exact ih (by rintro _ ⟨⟩) rest
  | case7 cs ih =>
    obtain ⟨_, rfl, behind⟩ := refed.of_cons (by decide)
    obtain ⟨ds, rfl, rest⟩ := behind.of_cons (by decide)
    exact ih code rest
  | case8 cs open' ih =>
    cases refed with
    | same _ rest =>
      rw [Text.stripFrom, if_pos rfl]
      · exact .same _ (ih (by rintro _ ⟨⟩) rest)
      · intro more star
        exact absurd star (by decide)
    | feed rest =>
      rw [Text.stripFrom, if_neg (by decide), Text.stripFrom, if_pos rfl]
      · exact .same _ (ih (by rintro _ ⟨⟩) rest)
      · intro more star
        exact absurd star (by decide)
      · intro more star
        exact absurd star (by decide)
  | case9 c cs open' other ih =>
    obtain ⟨ds, rfl, rest⟩ := refed.of_cons other
    have begins : ∀ more, c = '*' → ds = '/' :: more → False := by
      rintro more star rfl
      obtain ⟨back, rfl, -⟩ := rest.cons_of (by decide)
      exact open' back star rfl
    rw [Text.stripFrom, if_neg other]
    · exact ih (by rintro _ ⟨⟩) rest
    · exact begins

theorem Refed.stripComments (refed : Refed as bs) : Refed (stripComments as) (stripComments bs) :=
  refed.stripFrom (by rintro _ ⟨⟩; trivial)

/-- A place that is no bracket. -/
def IsNeutral (place : Option Char) : Prop :=
  ∀ c, place = some c → closerOf? c = none ∧ isCloser c = false

theorem outline_feed {c : Char} (feed : isFeed c = true) (mode : Mode) (cs : List Char) :
    ∃ place, IsNeutral place ∧ outline mode (c :: cs) = place :: outline (mode.next c) cs := by
  refine ⟨_, ?_, rfl⟩
  simp only [isFeed, Bool.or_eq_true, decide_eq_true_eq] at feed
  intro d place
  split at place
  next =>
    cases place
    rcases feed with rfl | rfl <;> exact ⟨rfl, rfl⟩
  next => cases place

theorem balancedFrom_neutral {place : Option Char} (neutral : IsNeutral place) (depth : Nat)
    (rest : List (Option Char)) : balancedFrom depth (place :: rest) = balancedFrom depth rest := by
  cases place with
  | none => rfl
  | some c =>
    obtain ⟨unopened, unclosed⟩ := neutral c rfl
    have opener : c ≠ '{' := by rintro rfl; cases unopened
    have closer : c ≠ '}' := by rintro rfl; cases unclosed
    simp [balancedFrom, opener, closer]

theorem Refed.balancedFrom (refed : Refed as bs) {mode : Mode} (apt : mode.Apt) (depth : Nat) :
    balancedFrom depth (outline mode as) = balancedFrom depth (outline mode bs) := by
  induction refed generalizing mode depth with
  | nil => rfl
  | same c _ ih => exact balancedFrom_congr _ (ih (apt.next c)) depth
  | @feed as bs _ ih =>
    obtain ⟨place, neutral, opened⟩ := outline_feed (by rfl : isFeed '\r' = true) mode ('\n' :: bs)
    obtain ⟨place', neutral', later⟩ :=
      outline_feed (by rfl : isFeed '\n' = true) (mode.next '\r') bs
    obtain ⟨first, plain, front⟩ := outline_feed (by rfl : isFeed '\n' = true) mode as
    rw [front, opened, later, balancedFrom_neutral plain, balancedFrom_neutral neutral,
      balancedFrom_neutral neutral', apt.next_feed]
    exact ih (apt.next '\n') depth

theorem Refed.bracesBalanced (refed : Refed as bs) : bracesBalanced as = bracesBalanced bs :=
  refed.balancedFrom Mode.apt_code 0

theorem closeOffset?_neutral (pending : List Char) {place : Option Char} (neutral : IsNeutral place)
    (rest : List (Option Char)) :
    closeOffset? pending (place :: rest) = (closeOffset? pending rest).map (· + 1) := by
  cases place with
  | none => rfl
  | some c => exact closeOffset?_plain (neutral c rfl).1 (neutral c rfl).2 pending rest

theorem Refed.closeOffset? (refed : Refed as bs) {mode : Mode} (apt : mode.Apt)
    (pending : List Char) :
    Option.Rel (fun m n => Refed (as.take m) (bs.take n) ∧ Refed (as.drop (m + 1)) (bs.drop (n + 1)))
      (closeOffset? pending (outline mode as)) (closeOffset? pending (outline mode bs)) := by
  induction refed generalizing mode pending with
  | nil => exact .none
  | @same c as bs rest ih =>
    rw [outline, outline, closeOffset?_cons, closeOffset?_cons]
    generalize closeStep pending _ = step
    obtain _ | _ | pending := step
    · exact .none
    · exact .some ⟨.nil, rest⟩
    · exact rel_map (ih (apt.next c) pending) fun m n both => ⟨.same c both.1, both.2⟩
  | @feed as bs rest ih =>
    obtain ⟨place, neutral, opened⟩ := outline_feed (by rfl : isFeed '\r' = true) mode ('\n' :: bs)
    obtain ⟨place', neutral', later⟩ :=
      outline_feed (by rfl : isFeed '\n' = true) (mode.next '\r') bs
    obtain ⟨first, plain, front⟩ := outline_feed (by rfl : isFeed '\n' = true) mode as
    rw [front, opened, later, closeOffset?_neutral _ plain, closeOffset?_neutral _ neutral,
      closeOffset?_neutral _ neutral', apt.next_feed, Option.map_map]
    exact rel_map (ih (apt.next '\n') pending) fun m n both => ⟨.feed both.1, both.2⟩

/-- The same group is cut off from two texts that differ in carriage returns. -/
theorem Refed.closeGroup? (refed : Refed as bs) (opener : Char) :
    Option.Rel (fun found other => Refed found.1 other.1 ∧ Refed found.2 other.2)
      (closeGroup? opener as) (closeGroup? opener bs) := by
  rw [Text.closeGroup?, Text.closeGroup?]
  cases closerOf? opener with
  | none => exact .none
  | some closer =>
    simp only [Option.bind_eq_bind, Option.bind_some]
    exact rel_bind (refed.closeOffset? Mode.apt_code [closer]) fun m n related => .some related

section Parts

variable {literal : List Char} {members : Char → Bool}

theorem Refed.dropLiteral? (refed : Refed as bs) (unbroken : ∀ c ∈ literal, isFeed c = false) :
    Option.Rel Refed (dropLiteral? literal as) (dropLiteral? literal bs) := by
  induction literal generalizing as bs with
  | nil => exact .some refed
  | cons x literal ih =>
    have solid := unbroken x (.head _)
    simp only [isFeed, Bool.or_eq_false_iff, decide_eq_false_iff_not] at solid
    cases refed with
    | nil => exact .none
    | same c rest =>
      rw [Text.dropLiteral?, Text.dropLiteral?]
      split
      next => exact ih rest fun d member => unbroken d (.tail _ member)
      next => exact .none
    | feed rest =>
      rw [Text.dropLiteral?, Text.dropLiteral?, if_neg solid.1, if_neg solid.2]
      exact .none

theorem Refed.dropBlanks? (refed : Refed as bs) :
    Option.Rel Refed (dropBlanks? as) (dropBlanks? bs) := by
  cases refed with
  | nil => exact .none
  | same c rest =>
    rw [Text.dropBlanks?, Text.dropBlanks?]
    split
    next => exact .some rest.trimLeft
    next => exact .none
  | @feed as bs rest =>
    have gone : Text.trimLeft ('\n' :: bs) = Text.trimLeft bs := rfl
    rw [dropBlanks?_cons (by decide), dropBlanks?_cons (by decide), gone]
    exact .some rest.trimLeft

theorem Refed.takeRun? (refed : Refed as bs) (solid : ∀ c, isFeed c = true → members c = false) :
    Option.Rel (fun found other => found.1 = other.1 ∧ Refed found.2 other.2)
      (takeRun? members as) (takeRun? members bs) := by
  have parts : as.takeWhile members = bs.takeWhile members ∧
      Refed (as.dropWhile members) (bs.dropWhile members) := by
    have feeds : members '\n' = false ∧ members '\r' = false := ⟨solid _ rfl, solid _ rfl⟩
    induction refed with
    | nil => exact ⟨rfl, .nil⟩
    | @same c as bs rest ih =>
      by_cases inside : members c = true
      · simpa [inside] using ih
      · simpa [inside] using Refed.same c rest
    | feed rest => simpa [feeds] using rest.feed
  rw [Text.takeRun?, Text.takeRun?, List.span_eq_takeWhile_dropWhile,
    List.span_eq_takeWhile_dropWhile, parts.1]
  cases bs.takeWhile members with
  | nil => exact .none
  | cons c run => exact .some ⟨rfl, parts.2⟩

theorem isWord_of_isFeed {c : Char} (feed : isFeed c = true) : isWord c = false := by
  simp only [isFeed, Bool.or_eq_true, decide_eq_true_eq] at feed
  rcases feed with rfl | rfl <;> rfl

theorem Refed.takeWord? (refed : Refed as bs) :
    Option.Rel (fun found other => found.1 = other.1 ∧ Refed found.2 other.2)
      (takeWord? as) (takeWord? bs) :=
  refed.takeRun? fun _ => isWord_of_isFeed

theorem isFeed_of_isWord {c : Char} (word : isWord c = true) : isFeed c = false := by
  by_contra feed
  rw [Bool.not_eq_false] at feed
  rw [isWord_of_isFeed feed] at word
  cases word

end Parts

/-- The same header is found at the front of two texts that differ in carriage returns. -/
theorem Refed.blockHeader? (refed : Refed as bs) {keyword : List Char}
    (word : IsWordText keyword) (before : Option Char) :
    Option.Rel (fun found other => found.1 = other.1 ∧ Refed found.2 other.2)
      (blockHeader? keyword before as) (blockHeader? keyword before bs) := by
  unfold Text.blockHeader?
  cases before.any fun c => isWord c || c = '.' || c = '@' with
  | true => exact .none
  | false =>
    have free : (guard ((!false) = true) : Option Unit) = some () := rfl
    simp only [free, Option.bind_eq_bind, Option.bind_some]
    refine rel_bind (refed.dropLiteral? fun c member => isFeed_of_isWord (word.2 c member)) ?_
    intro cs ds refed
    refine rel_bind refed.dropBlanks? fun cs ds refed => ?_
    refine rel_bind refed.takeWord? ?_
    rintro ⟨name, cs⟩ ⟨name', ds⟩ ⟨alike, refed⟩
    refine rel_bind (refed.trimLeft.dropLiteral? (by decide)) fun cs ds refed => ?_
    exact .some ⟨alike, refed⟩

end SchemaAtlas.Text
