import SchemaAtlas.Proofs.Text.Groups
import SchemaAtlas.Proofs.Text.Kept
import SchemaAtlas.Proofs.Text.Words

/-!
Where the blocks of a text stand. The search takes the first header from a place on, up to the brace
that closes its block, and goes on behind it, so that no header outside the blocks is passed over.
-/

set_option autoImplicit false

namespace SchemaAtlas.Text

@[ext]
structure Extent where
  start : Nat
  brace : Nat
  close : Nat
  opens : start < brace
  closes : brace < close

namespace Extent

def header (extent : Extent) (cs : List Char) : List Char :=
  (cs.take extent.brace).drop extent.start

def body (extent : Extent) (cs : List Char) : List Char :=
  (cs.take extent.close).drop (extent.brace + 1)

def Holds (extent : Extent) (i : Nat) : Prop := extent.start ≤ i ∧ i ≤ extent.close

theorem exists_holds_cons {extent : Extent} {extents : List Extent} {i : Nat}
    (behind : extent.start ≤ i)
    (later : extent.close < i → ∃ other ∈ extents, other.Holds i) :
    ∃ other ∈ extent :: extents, other.Holds i := by
  by_cases within : i ≤ extent.close
  next => exact ⟨extent, .head _, behind, within⟩
  next =>
    obtain ⟨other, member, holds⟩ := later (by omega)
    exact ⟨other, .tail _ member, holds⟩

end Extent

/-- A header from one place of a text to its brace at another: the keyword, which does not continue a
word, a dotted name or an attribute, blanks, a name, and more blanks or none. -/
structure HeaderAt (keyword cs : List Char) (start brace : Nat) (name : List Char) : Prop where
  free : IsFree (cs.take start).getLast?
  named : IsWordText name
  spelled : ∃ gap space, gap ≠ [] ∧ (∀ c ∈ gap, isBlank c = true) ∧
    (∀ c ∈ space, isBlank c = true) ∧
    (cs.take brace).drop start = keyword ++ (gap ++ (name ++ space))
  opens : cs[brace]? = some '{'

def BeginsHeader (keyword cs : List Char) (start : Nat) : Prop :=
  ∃ brace name, HeaderAt keyword cs start brace name

structure Block.StandsAt (keyword cs : List Char) (block : Block) (extent : Extent) : Prop where
  header : HeaderAt keyword cs extent.start extent.brace block.name.toList
  partner : partner? cs extent.brace = .ok (some (extent.close : Int))
  body : block.body = extent.body cs
  line : block.line = lineNumberAt cs extent.start

namespace HeaderAt

variable {keyword cs name : List Char} {start brace : Nat}

theorem lt_length (header : HeaderAt keyword cs start brace name) : brace < cs.length :=
  (List.getElem?_eq_some_iff.mp header.opens).1

theorem start_lt (header : HeaderAt keyword cs start brace name) : start < brace := by
  obtain ⟨gap, space, held, -, -, same⟩ := header.spelled
  have length := congrArg List.length same
  have some := List.length_pos_iff.mpr held
  simp only [List.length_drop, List.length_take, List.length_append] at length
  omega

theorem found (header : HeaderAt keyword cs start brace name) :
    blockHeader? keyword (cs.take start).getLast? (cs.drop start) =
      some (name, cs.drop (brace + 1)) := by
  obtain ⟨gap, space, held, blank, spaced, same⟩ := header.spelled
  obtain ⟨within, opens⟩ := List.getElem?_eq_some_iff.mp header.opens
  have before := header.start_lt
  have whole : cs.drop start =
      keyword ++ (gap ++ (name ++ (space ++ '{' :: cs.drop (brace + 1)))) := by
    calc cs.drop start
      _ = (cs.take brace ++ cs.drop brace).drop start := by rw [List.take_append_drop]
      _ = (cs.take brace).drop start ++ cs.drop brace := by
        rw [List.drop_append_of_le_length]
        rw [List.length_take]
        omega
      _ = keyword ++ (gap ++ (name ++ (space ++ '{' :: cs.drop (brace + 1)))) := by
        rw [same, List.drop_eq_getElem_cons within, opens]
        simp
  rw [whole]
  exact blockHeader?_header keyword held blank header.named spaced header.free _

theorem unique {name' : List Char} {brace' : Nat} (header : HeaderAt keyword cs start brace name)
    (other : HeaderAt keyword cs start brace' name') : brace = brace' ∧ name = name' := by
  have same := header.found.symm.trans other.found
  rw [Option.some.injEq, Prod.mk.injEq] at same
  have lengths := congrArg List.length same.2
  have within := header.lt_length
  have within' := other.lt_length
  rw [List.length_drop, List.length_drop] at lengths
  exact ⟨by omega, same.1⟩

theorem take_iff {stop : Nat} : HeaderAt keyword (cs.take stop) start brace name ↔
    HeaderAt keyword cs start brace name ∧ brace < stop := by
  constructor
  next =>
    intro header
    have short := header.lt_length
    have before := header.start_lt
    rw [List.length_take] at short
    obtain ⟨free, named, spelled, opens⟩ := header
    rw [List.take_take, Nat.min_eq_left (by omega)] at free spelled
    rw [List.getElem?_take_of_lt (by omega)] at opens
    exact ⟨⟨free, named, spelled, opens⟩, by omega⟩
  next =>
    rintro ⟨header, inside⟩
    have before := header.start_lt
    obtain ⟨free, named, spelled, opens⟩ := header
    refine ⟨?_, named, ?_, ?_⟩
    · rwa [List.take_take, Nat.min_eq_left (by omega)]
    · rwa [List.take_take, Nat.min_eq_left (by omega)]
    · rwa [List.getElem?_take_of_lt inside]

/-- What the search finds in front of some text is a header of the whole. -/
theorem of_found {front rest behind : List Char}
    (found : blockHeader? keyword front.getLast? rest = some (name, behind)) :
    ∃ head, rest = head ++ '{' :: behind ∧
      HeaderAt keyword (front ++ rest) front.length (front.length + head.length) name := by
  obtain ⟨gap, space, held, blank, named, spaced, rfl⟩ := parts_of_blockHeader? found
  have free : IsFree front.getLast? := isFree_of_blockHeader? found
  have whole (head : List Char) : keyword ++ (gap ++ (name ++ (space ++ '{' :: behind))) =
      keyword ++ (gap ++ (name ++ space)) ++ '{' :: behind := by simp
  generalize spelled : keyword ++ (gap ++ (name ++ space)) = head at whole
  rw [whole head]
  refine ⟨head, rfl, ?_, named, ⟨gap, space, held, blank, spaced, ?_⟩, ?_⟩
  next => rwa [List.take_left]
  next =>
    rw [← List.append_assoc, List.take_left' (by simp), List.drop_left, spelled]
  next =>
    rw [List.getElem?_append_right (by omega), Nat.add_sub_cancel_left]
    simp

end HeaderAt

theorem partner?_eq_group {cs : List Char} {place : Nat} {opener closer : Char}
    (opens : cs[place]? = some opener) (pair : closerOf? opener = some closer) :
    partner? cs place = .ok ((closeGroup? opener (cs.drop (place + 1))).map fun group =>
      ((place + 1 + group.1.length : Nat) : Int)) := by
  rw [partner?_eq opens pair, closeGroup?, pair]
  simp only [Option.bind_eq_bind, Option.bind_some]
  cases offset : closeOffset? [closer] (outline .code (cs.drop (place + 1))) with
  | none => rfl
  | some n =>
    have within := (closeOffset?_append offset []).1
    rw [length_outline] at within
    simp [List.length_take_of_le (Nat.le_of_lt within)]

/-- What stands between a brace and its partner, and behind it. -/
theorem group_of_partner? {cs : List Char} {brace close : Nat} (opens : cs[brace]? = some '{')
    (partner : partner? cs brace = .ok (some (close : Int))) :
    ∃ body rest, closeGroup? '{' (cs.drop (brace + 1)) = some (body, rest) ∧
      close = brace + 1 + body.length ∧ cs.drop (brace + 1) = body ++ '}' :: rest := by
  rw [partner?_eq_group opens rfl, Except.ok.injEq, Option.map_eq_some_iff] at partner
  obtain ⟨⟨body, rest⟩, group, place⟩ := partner
  obtain ⟨closer, pair, split⟩ := eq_append_of_closeGroup? group
  cases pair
  exact ⟨body, rest, group, (Int.natCast_inj.mp place).symm, split⟩

theorem partner?_take {cs : List Char} {brace close stop : Nat} (opens : cs[brace]? = some '{')
    (partner : partner? cs brace = .ok (some (close : Int))) (inside : close < stop) :
    partner? (cs.take stop) brace = .ok (some (close : Int)) := by
  obtain ⟨body, rest, group, rfl, split⟩ := group_of_partner? opens partner
  have front : (cs.take stop)[brace]? = some '{' := by
    rwa [List.getElem?_take_of_lt (by omega)]
  -- The text that is left still holds the whole group.
  have shorter : (cs.take stop).drop (brace + 1) =
      body ++ '}' :: rest.take (stop - (brace + 1) - (body.length + 1)) := by
    have fits : (body ++ ['}']).length ≤ stop - (brace + 1) := by
      rw [List.length_append, List.length_singleton]
      omega
    rw [List.drop_take, split, List.append_cons, List.take_append, List.take_of_length_le fits]
    simp
  rw [split] at group
  rw [partner?_eq_group front rfl, shorter, closeGroup?_swap group]
  rfl

theorem Block.StandsAt.take {keyword cs : List Char} {block : Block} {extent : Extent}
    (stands : block.StandsAt keyword cs extent) {stop : Nat} (inside : extent.close < stop) :
    block.StandsAt keyword (cs.take stop) extent := by
  have opens := extent.opens
  have closes := extent.closes
  constructor
  next => exact HeaderAt.take_iff.mpr ⟨stands.header, by omega⟩
  next => exact partner?_take stands.header.opens stands.partner inside
  next => rw [stands.body, Extent.body, Extent.body, List.take_take, Nat.min_eq_left (by omega)]
  next =>
    rw [stands.line, lineNumberAt_natCast, lineNumberAt_natCast, List.take_take,
      Nat.min_eq_left (by omega)]

theorem Block.StandsAt.unique {keyword cs : List Char} {block other : Block}
    {extent extent' : Extent} (stands : block.StandsAt keyword cs extent)
    (stands' : other.StandsAt keyword cs extent') (start : extent.start = extent'.start) :
    block = other ∧ extent = extent' := by
  have header := stands'.header
  rw [← start] at header
  obtain ⟨brace, name⟩ := stands.header.unique header
  have partner := stands'.partner
  rw [← brace, stands.partner, Except.ok.injEq, Option.some.injEq, Int.natCast_inj] at partner
  have same : extent = extent' := Extent.ext start brace partner
  have body : block.body = other.body := by rw [stands.body, stands'.body, same]
  have line : block.line = other.line := by rw [stands.line, stands'.line, same]
  cases block
  cases other
  simp only [Block.mk.injEq]
  exact ⟨⟨String.toList_inj.mp name, body, line⟩, same⟩

/-- The line of a character in the body of a block is counted from the line of its header. -/
theorem Block.StandsAt.lineNumberAt_body {keyword cs : List Char} {block : Block} {extent : Extent}
    (stands : block.StandsAt keyword cs extent) {place : Nat} (inside : place < block.body.length) :
    extent.brace + 1 + place < cs.length ∧ lineNumberAt cs (extent.brace + 1 + place : Nat) =
      block.line + (extent.header cs).count '\n' + (block.body.take place).count '\n' := by
  have opens := extent.opens
  have body : block.body = (cs.drop (extent.brace + 1)).take (extent.close - (extent.brace + 1)) := by
    rw [stands.body, Extent.body, List.drop_take]
  have within : place < extent.close - (extent.brace + 1) ∧
      place < (cs.drop (extent.brace + 1)).length := by
    rw [body, List.length_take] at inside
    omega
  have head : cs.take extent.brace = cs.take extent.start ++ extent.header cs := by
    have split := List.take_append_drop extent.start (cs.take extent.brace)
    rw [List.take_take, Nat.min_eq_left (by omega)] at split
    exact split.symm
  have front : cs.take (extent.brace + 1 + place) =
      cs.take extent.start ++ extent.header cs ++ '{' :: block.body.take place := by
    rw [List.take_add, List.take_add_one, stands.header.opens, head, body, List.take_take,
      Nat.min_eq_left (by omega)]
    simp
  refine ⟨by rw [List.length_drop] at within; omega, ?_⟩
  rw [lineNumberAt_natCast, front, stands.line, lineNumberAt_natCast, List.count_append,
    List.count_append, List.count_cons_of_ne (by decide)]
  omega

/-- How a search goes on from a place of a text: it finds no header any more, or the next one, whose
block is closed or not. -/
inductive Scans (keyword cs : List Char) : Nat → BlockScan → List Extent → Prop
  | finished {i : Nat} (quiet : ∀ j, i ≤ j → ¬ BeginsHeader keyword cs j) :
      Scans keyword cs i {} []
  | unclosed {i start brace : Nat} {name : List Char} (behind : i ≤ start)
      (quiet : ∀ j, i ≤ j → j < start → ¬ BeginsHeader keyword cs j)
      (header : HeaderAt keyword cs start brace name) (alone : partner? cs brace = .ok none) :
      Scans keyword cs i
        { unclosed := some { name := String.ofList name, line := lineNumberAt cs start } } []
  | block {i : Nat} {block : Block} {extent : Extent} {scan : BlockScan} {extents : List Extent}
      (behind : i ≤ extent.start)
      (quiet : ∀ j, i ≤ j → j < extent.start → ¬ BeginsHeader keyword cs j)
      (stands : block.StandsAt keyword cs extent)
      (rest : Scans keyword cs (extent.close + 1) scan extents) :
      Scans keyword cs i { scan with blocks := block :: scan.blocks } (extent :: extents)

namespace Scans

variable {keyword cs : List Char} {i : Nat} {scan : BlockScan} {extents : List Extent}

theorem earlier (scans : Scans keyword cs (i + 1) scan extents)
    (none : ¬ BeginsHeader keyword cs i) : Scans keyword cs i scan extents := by
  have further {P : Nat → Prop} (later : ∀ j, i + 1 ≤ j → P j → ¬ BeginsHeader keyword cs j) :
      ∀ j, i ≤ j → P j → ¬ BeginsHeader keyword cs j := by
    intro j behind holds
    by_cases here : j = i
    next => rwa [here]
    next => exact later j (by omega) holds
  cases scans with
  | finished quiet =>
    have none : ∀ j, i ≤ j → True → ¬ BeginsHeader keyword cs j :=
      further fun j behind _ => quiet j behind
    exact .finished fun j behind => none j behind trivial
  | unclosed behind quiet header alone => exact .unclosed (by omega) (further quiet) header alone
  | block behind quiet stands rest => exact .block (by omega) (further quiet) stands rest

theorem standsAt (scans : Scans keyword cs i scan extents) :
    List.Forall₂ (Block.StandsAt keyword cs) scan.blocks extents := by
  induction scans with
  | finished => exact .nil
  | unclosed => exact .nil
  | block _ _ stands _ ih => exact .cons stands ih

theorem start_ge (scans : Scans keyword cs i scan extents) :
    ∀ extent ∈ extents, i ≤ extent.start := by
  induction scans with
  | finished => simp
  | unclosed => simp
  | @block _ _ first _ _ behind _ _ _ ih =>
    intro extent member
    have opens := first.opens
    have closes := first.closes
    rcases List.mem_cons.mp member with rfl | later
    next => exact behind
    next =>
      have start := ih extent later
      omega

theorem ascending (scans : Scans keyword cs i scan extents) :
    extents.Pairwise fun first second => first.close < second.start := by
  induction scans with
  | finished => exact .nil
  | unclosed => exact .nil
  | block _ _ _ rest ih => exact .cons rest.start_ge ih

theorem holds (scans : Scans keyword cs i scan extents) (closed : scan.unclosed = none) {j : Nat}
    (behind : i ≤ j) (begins : BeginsHeader keyword cs j) : ∃ extent ∈ extents, extent.Holds j := by
  induction scans with
  | finished quiet => exact absurd begins (quiet j behind)
  | unclosed => cases closed
  | @block i _ extent _ _ _ quiet _ _ ih =>
    have start : extent.start ≤ j := by
      by_contra early
      exact quiet j behind (by omega) begins
    exact Extent.exists_holds_cons start fun after => ih closed after

/-- Up to the header of a block that is not closed, the text is read like one that ends there. -/
theorem cut {last : OpenBlock} (scans : Scans keyword cs i scan extents)
    (broken : scan.unclosed = some last) :
    ∃ start brace, HeaderAt keyword cs start brace last.name.toList ∧
      last.line = lineNumberAt cs start ∧ partner? cs brace = .ok none ∧ i ≤ start ∧
      (∀ extent ∈ extents, extent.close < start) ∧
      (∀ j, i ≤ j → j < start → BeginsHeader keyword cs j → ∃ extent ∈ extents, extent.Holds j) ∧
      Scans keyword (cs.take start) i { blocks := scan.blocks } extents := by
  have shorter {j start : Nat} (begins : BeginsHeader keyword (cs.take start) j) :
      BeginsHeader keyword cs j ∧ j < start := by
    obtain ⟨brace, name, header⟩ := begins
    obtain ⟨header, inside⟩ := HeaderAt.take_iff.mp header
    have before := header.start_lt
    exact ⟨⟨brace, name, header⟩, by omega⟩
  induction scans with
  | finished => cases broken
  | @unclosed i start brace name behind quiet header alone =>
    cases broken
    refine ⟨start, brace, by simpa using header, rfl, alone, behind, by simp, ?_, ?_⟩
    next => exact fun j after before begins => absurd begins (quiet j after before)
    next =>
      refine .finished fun j after begins => ?_
      obtain ⟨begins, before⟩ := shorter begins
      exact quiet j after before begins
  | @block i block extent scan extents behind quiet stands rest ih =>
    obtain ⟨start, brace, header, line, alone, after, closed, inside, scans⟩ := ih broken
    have opens := extent.opens
    have closes := extent.closes
    refine ⟨start, brace, header, line, alone, by omega, ?_, ?_, ?_⟩
    next =>
      intro other member
      rcases List.mem_cons.mp member with rfl | later
      next => omega
      next => exact closed other later
    next =>
      intro j from' before begins
      have start : extent.start ≤ j := by
        by_contra early
        exact quiet j from' (by omega) begins
      exact Extent.exists_holds_cons start fun after => inside j after before begins
    next =>
      have quiet' : ∀ j, i ≤ j → j < extent.start → ¬ BeginsHeader keyword (cs.take start) j :=
        fun j after before begins => quiet j after before (shorter begins).1
      exact .block behind quiet' (stands.take (by omega)) scans

theorem first_unique {start other : Nat} (behind : i ≤ start) (behind' : i ≤ other)
    (quiet : ∀ j, i ≤ j → j < start → ¬ BeginsHeader keyword cs j)
    (quiet' : ∀ j, i ≤ j → j < other → ¬ BeginsHeader keyword cs j)
    (begins : BeginsHeader keyword cs start) (begins' : BeginsHeader keyword cs other) :
    start = other := by
  by_contra apart
  rcases Nat.lt_or_gt_of_ne apart with before | before
  next => exact quiet' start behind before begins
  next => exact quiet other behind' before begins'

theorem unique {scan' : BlockScan} {extents' : List Extent}
    (scans : Scans keyword cs i scan extents) (other : Scans keyword cs i scan' extents') :
    scan = scan' ∧ extents = extents' := by
  -- Both searches stop at the same header, and what follows from it is settled by the text.
  induction scans generalizing scan' extents' with
  | finished none =>
    cases other with
    | finished => exact ⟨rfl, rfl⟩
    | unclosed behind _ header _ => exact absurd ⟨_, _, header⟩ (none _ behind)
    | block behind _ stands _ => exact absurd ⟨_, _, stands.header⟩ (none _ behind)
  | unclosed behind quiet header alone =>
    cases other with
    | finished none => exact absurd ⟨_, _, header⟩ (none _ behind)
    | unclosed behind' quiet' header' _ =>
      obtain rfl := first_unique behind behind' quiet quiet' ⟨_, _, header⟩ ⟨_, _, header'⟩
      obtain ⟨-, rfl⟩ := header.unique header'
      exact ⟨rfl, rfl⟩
    | block behind' quiet' stands _ =>
      have start := first_unique behind behind' quiet quiet' ⟨_, _, header⟩ ⟨_, _, stands.header⟩
      subst start
      obtain ⟨rfl, -⟩ := header.unique stands.header
      cases alone.symm.trans stands.partner
  | block behind quiet stands rest ih =>
    cases other with
    | finished none => exact absurd ⟨_, _, stands.header⟩ (none _ behind)
    | unclosed behind' quiet' header alone =>
      have start := first_unique behind behind' quiet quiet' ⟨_, _, stands.header⟩ ⟨_, _, header⟩
      subst start
      obtain ⟨rfl, -⟩ := stands.header.unique header
      cases alone.symm.trans stands.partner
    | block behind' quiet' stands' rest' =>
      have start :=
        first_unique behind behind' quiet quiet' ⟨_, _, stands.header⟩ ⟨_, _, stands'.header⟩
      obtain ⟨rfl, rfl⟩ := stands.unique stands' start
      obtain ⟨rfl, rfl⟩ := ih rest'
      exact ⟨rfl, rfl⟩

end Scans

theorem lineNumberAt_append (front rest : List Char) :
    lineNumberAt (front ++ rest) front.length = lineAfter front := by
  rw [lineNumberAt_natCast, List.take_left, lineAfter]

theorem lineAfter_append (front rest : List Char) :
    lineAfter (front ++ rest) = lineAfter front + rest.count '\n' := by
  rw [lineAfter, lineAfter, List.count_append]
  omega

/-- A block that the search finds behind some text stands there, up to its closing brace. -/
theorem exists_standsAt {keyword front rest name behind body tail : List Char}
    (found : blockHeader? keyword front.getLast? rest = some (name, behind))
    (group : closeGroup? '{' behind = some (body, tail)) :
    ∃ (extent : Extent) (matched : List Char), rest = matched ++ '}' :: tail ∧
      extent.start = front.length ∧ extent.close = (front ++ matched).length ∧
      Block.StandsAt keyword (front ++ rest)
        { name := String.ofList name, body, line := lineAfter front } extent := by
  obtain ⟨head, split, header⟩ := HeaderAt.of_found found
  obtain ⟨closer, pair, inside⟩ := eq_append_of_closeGroup? group
  cases pair
  change behind = body ++ '}' :: tail at inside
  have after : (front ++ rest).drop (front.length + head.length + 1) = behind := by
    rw [split, List.append_cons, ← List.append_assoc]
    exact List.drop_left' (by simp; omega)
  have partner := partner?_eq_group header.opens rfl
  rw [after, group, Option.map_some] at partner
  let extent : Extent :=
    { start := front.length, brace := front.length + head.length
      close := front.length + head.length + 1 + body.length
      opens := header.start_lt, closes := by omega }
  refine ⟨extent, head ++ '{' :: body, by rw [split, inside]; simp, rfl, ?_, ?_⟩
  next =>
    simp only [extent, List.length_append, List.length_cons]
    omega
  next =>
    constructor
    next => simpa using header
    next => exact partner
    next =>
      change body = ((front ++ rest).take extent.close).drop (extent.brace + 1)
      rw [List.drop_take, after, inside, Nat.add_sub_cancel_left, List.take_left]
    next => exact (lineNumberAt_append front rest).symm

theorem blocksFrom_scans (keyword front rest : List Char) : ∃ extents,
    Scans keyword (front ++ rest) front.length
      (blocksFrom keyword 0 (lineAfter front) front.getLast? rest) extents := by
  -- The search may leap over a block, so the induction is on the length of what is left.
  generalize size : rest.length = n
  induction n using Nat.strong_induction_on generalizing front rest with
  | _ n ih =>
    have quiet : ∀ j, front.length ≤ j → j < front.length →
        ¬ BeginsHeader keyword (front ++ rest) j := by
      intro j behind before
      omega
    cases found : blockHeader? keyword front.getLast? rest with
    | none =>
      have here : ¬ BeginsHeader keyword (front ++ rest) front.length := by
        rintro ⟨brace, name, header⟩
        have found' := header.found
        rw [List.take_left, List.drop_left, found] at found'
        cases found'
      cases rest with
      | nil =>
        refine ⟨[], .finished fun j behind ⟨brace, name, header⟩ => ?_⟩
        have before := header.start_lt
        have within := header.lt_length
        rw [List.append_nil] at within
        omega
      | cons c rest =>
        obtain ⟨extents, scans⟩ := ih rest.length (by simp [← size]) (front ++ [c]) rest rfl
        rw [← List.append_cons, List.length_append, List.length_singleton, lineAfter_append,
          List.getLast?_concat] at scans
        rw [blocksFrom_cons _ _ _ _ _ found]
        exact ⟨extents, scans.earlier here⟩
    | some parts =>
      obtain ⟨name, behind⟩ := parts
      cases group : closeGroup? '{' behind with
      | none =>
        obtain ⟨head, split, header⟩ := HeaderAt.of_found found
        have alone := partner?_eq_group header.opens rfl
        have after : (front ++ rest).drop (front.length + head.length + 1) = behind := by
          rw [split, List.append_cons, ← List.append_assoc]
          exact List.drop_left' (by simp; omega)
        rw [after, group, Option.map_none] at alone
        rw [blocksFrom_unclosed found group, ← lineNumberAt_append front rest]
        exact ⟨[], .unclosed (Nat.le_refl _) quiet header alone⟩
      | some parts =>
        obtain ⟨body, tail⟩ := parts
        obtain ⟨extent, matched, whole, start, close, stands⟩ := exists_standsAt found group
        obtain ⟨matched', whole', read⟩ := blocksFrom_found found group (lineAfter front)
        obtain rfl : matched' = matched := List.append_cancel_right (whole'.symm.trans whole)
        have shorter : tail.length < n := by
          rw [← size, whole, List.length_append, List.length_cons]
          omega
        obtain ⟨extents, scans⟩ := ih tail.length shorter (front ++ (matched' ++ ['}'])) tail rfl
        have next : (front ++ (matched' ++ ['}'])).length = extent.close + 1 := by
          rw [close, ← List.append_assoc, List.length_append, List.length_singleton]
        have same : front ++ (matched' ++ ['}']) ++ tail = front ++ rest := by
          rw [whole]
          simp
        have last : (front ++ (matched' ++ ['}'])).getLast? = some '}' := by
          rw [← List.append_assoc, List.getLast?_concat]
        rw [next, same, last, lineAfter_append] at scans
        rw [← start] at quiet
        rw [read, ← start]
        exact ⟨extent :: extents, .block (Nat.le_refl _) quiet stands scans⟩

/-- The blocks of a text stand one behind the other, each with its body between its brace and the
partner of that brace, and every header begins in one of them, unless a block is not closed: then the
others are those of the text in front of its header. -/
theorem headers_in_blocks (keyword : String) (cs : List Char) :
    ∃ extents : List Extent,
      List.Forall₂ (Block.StandsAt keyword.toList cs) (blocks keyword cs).blocks extents ∧
      extents.Pairwise (fun first second => first.close < second.start) ∧
      ((blocks keyword cs).unclosed = none → ∀ i, BeginsHeader keyword.toList cs i →
        ∃ extent ∈ extents, extent.Holds i) ∧
      ∀ last, (blocks keyword cs).unclosed = some last →
        ∃ start brace, HeaderAt keyword.toList cs start brace last.name.toList ∧
          last.line = lineNumberAt cs start ∧ partner? cs brace = .ok none ∧
          (∀ extent ∈ extents, extent.close < start) ∧
          (∀ i < start, BeginsHeader keyword.toList cs i → ∃ extent ∈ extents, extent.Holds i) ∧
          blocks keyword (cs.take start) = { blocks := (blocks keyword cs).blocks } := by
  obtain ⟨extents, scans⟩ := blocksFrom_scans keyword.toList [] cs
  change Scans keyword.toList cs 0 (blocks keyword cs) extents at scans
  refine ⟨extents, scans.standsAt, scans.ascending, ?_, ?_⟩
  next => exact fun closed i begins => scans.holds closed (Nat.zero_le i) begins
  next =>
    intro last broken
    obtain ⟨start, brace, header, line, alone, -, closed, inside, front⟩ := scans.cut broken
    obtain ⟨_, again⟩ := blocksFrom_scans keyword.toList [] (cs.take start)
    refine ⟨start, brace, header, line, alone, closed, ?_, (again.unique front).1⟩
    exact fun i before begins => inside i (Nat.zero_le i) before begins

end SchemaAtlas.Text
