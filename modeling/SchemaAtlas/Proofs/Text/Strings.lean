import SchemaAtlas.Proofs.Text.Closed

/-!
A string in a text: the scans for comments and for brackets pass over what it holds, but the search
for blocks does not, and finds the headers in it.
-/

set_option autoImplicit false

namespace SchemaAtlas.Text

/-- What may stand between the double quotes of a string on one line without an escape. -/
def IsContent (cs : List Char) : Prop := ∀ c ∈ cs, c ≠ '"' ∧ c ≠ '\\' ∧ c ≠ '\n'

instance (cs : List Char) : Decidable (IsContent cs) := inferInstanceAs (Decidable (∀ c ∈ cs, _))

def withString (before content after : List Char) : List Char :=
  before ++ '"' :: (content ++ '"' :: after)

namespace IsContent

variable {content : List Char}

theorem quotable (plain : IsContent content) : IsQuotable '"' content :=
  .of_plain (fun member => (plain _ member).1 rfl) fun member => (plain _ member).2.1 rfl

theorem count_feed (plain : IsContent content) : (content ++ ['"']).count '\n' = 0 := by
  rw [List.count_eq_zero]
  intro member
  rcases List.mem_append.mp member with inside | last
  · exact (plain _ inside).2.2 rfl
  · simp at last

theorem stripFrom_append (plain : IsContent content) (rest : List Char) :
    stripFrom (.text (.quoted '"')) (content ++ rest) =
      content ++ stripFrom (.text (.quoted '"')) rest := by
  induction content with
  | nil => rfl
  | cons c content ih =>
    obtain ⟨other, unescaped, -⟩ := plain c (.head _)
    have stays : (Mode.quoted '"').next c = .quoted '"' := by simp [Mode.next, other, unescaped]
    rw [List.cons_append, stripFrom_text (fun inCode => by cases inCode), stays,
      ih fun d member => plain d (.tail _ member), List.cons_append]

end IsContent

theorem stripComments_withString {before content : List Char}
    (code : (Region.text .code).run before = .text .code) (plain : IsContent content)
    (after : List Char) : stripComments (withString before content after) =
      withString (stripComments before) content (stripComments after) := by
  have opens : stripFrom (.text .code) ('"' :: (content ++ '"' :: after)) =
      '"' :: stripFrom (.text (.quoted '"')) (content ++ '"' :: after) :=
    stripFrom_text (by simp)
  have closes : stripFrom (.text (.quoted '"')) ('"' :: after) =
      '"' :: stripFrom (.text .code) after :=
    stripFrom_text (by simp)
  rw [stripComments, withString, stripFrom_append (by decide), code, opens, plain.stripFrom_append,
    closes]
  rfl

/-- What a string holds does not matter for the balance of the brackets. -/
theorem bracesBalanced_withString {before content : List Char}
    (code : Mode.code.run before = .code) (plain : IsContent content) (after : List Char) :
    bracesBalanced (withString before content after) = bracesBalanced (before ++ after) := by
  have string : IsNested ('"' :: content ++ '"' :: []) := .string rfl plain.quotable .nil
  rw [← string.bracesBalanced_insert code after]
  simp [withString]

section Blocks

variable {keyword : List Char}

/-- Behind a text whose blocks are closed the search goes on if no header reaches from that text into
what follows. -/
theorem blocksFrom_apart {front rest : List Char}
    (apart : ∀ before cs, cs ≠ [] → cs <:+ front → blockHeader? keyword before (cs ++ rest) =
      (blockHeader? keyword before cs).map fun found => (found.1, found.2 ++ rest))
    {line : Nat} {before : Option Char}
    (closed : (blocksFrom keyword 0 line before front).unclosed = none) :
    blocksFrom keyword 0 line before (front ++ rest) =
      let next := blocksFrom keyword 0 (line + front.count '\n') (front.getLast?.or before) rest
      { blocks := (blocksFrom keyword 0 line before front).blocks ++ next.blocks
        unclosed := next.unclosed } := by
  -- The search may leap over a block, so the induction is on the length of what is left.
  generalize size : front.length = n
  induction n using Nat.strong_induction_on generalizing front line before with
  | _ n ih =>
    cases front with
    | nil => rfl
    | cons d front =>
      have longer := apart before (d :: front) (by simp) (List.suffix_refl _)
      cases header : blockHeader? keyword before (d :: front) with
      | none =>
        rw [header, Option.map_none] at longer
        rw [blocksFrom_cons _ _ _ _ _ header] at closed ⊢
        rw [List.cons_append] at longer ⊢
        rw [blocksFrom_cons _ _ _ _ _ longer, ih front.length (by simp [← size])
          (fun before cs held suffix => apart before cs held (suffix.trans (List.suffix_cons _ _)))
          closed rfl, Nat.add_assoc, ← List.count_append, List.getLast?_cons]
        cases front.getLast? <;> rfl
      | some found =>
        obtain ⟨name, inside⟩ := found
        rw [header, Option.map_some] at longer
        cases group : closeGroup? '{' inside with
        | none =>
          rw [blocksFrom_unclosed header group] at closed
          cases closed
        | some found =>
          obtain ⟨body, tail⟩ := found
          obtain ⟨matched, split, alone⟩ := blocksFrom_found header group line
          obtain ⟨matched', split', behind⟩ :=
            blocksFrom_found longer (closeGroup?_append group rest) line
          -- Both scans leap over the same text, and the longer one goes on behind it.
          have same : matched' = matched := by
            have both : matched' ++ '}' :: (tail ++ rest) = matched ++ '}' :: (tail ++ rest) := by
              rw [← split', split]
              simp
            exact List.append_cancel_right both
          subst same
          rw [alone] at closed ⊢
          rw [split] at size apart ⊢
          have shorter : tail.length < n := by
            rw [← size, List.length_append, List.length_cons]
            omega
          have suffix : tail <:+ matched' ++ '}' :: tail :=
            (List.suffix_cons _ _).trans (List.suffix_append _ _)
          have lines : line + (matched' ++ ['}']).count '\n' + tail.count '\n' =
              line + (matched' ++ '}' :: tail).count '\n' := by
            rw [Nat.add_assoc, ← List.count_append]
            simp
          have last : tail.getLast?.or (some '}') = (matched' ++ '}' :: tail).getLast?.or before := by
            rw [List.getLast?_append, List.getLast?_cons]
            cases tail.getLast? <;> rfl
          rw [split] at behind
          rw [behind, ih tail.length shorter
            (fun before cs held within => apart before cs held (within.trans suffix)) closed rfl,
            lines, last]
          rfl

/-- Behind a text whose blocks are closed the search goes on from a character that has no place in a
header. -/
theorem blocksFrom_break (word : IsWordText keyword) {c : Char} (breaks : breaksHeader c = true)
    {cs : List Char} {line : Nat} {before : Option Char}
    (closed : (blocksFrom keyword 0 line before cs).unclosed = none) (rest : List Char) :
    blocksFrom keyword 0 line before (cs ++ c :: rest) =
      let next := blocksFrom keyword 0 (line + (cs ++ [c]).count '\n') (some c) rest
      { blocks := (blocksFrom keyword 0 line before cs).blocks ++ next.blocks
        unclosed := next.unclosed } := by
  have outside : blockHeader? keyword (cs.getLast?.or before) ([] ++ c :: rest) = none := by
    rw [blockHeader?_break rest word breaks, show blockHeader? keyword _ [] = none from
      Headerless.nil.findMatch _, Option.map_none]
  rw [blocksFrom_apart (fun before cs _ _ => blockHeader?_break rest word breaks before cs) closed,
    blocksFrom_cons _ _ _ _ _ outside, Nat.add_assoc, ← List.count_append]

theorem isFree_quote : IsFree (some '"') := by
  rintro _ ⟨⟩
  decide

theorem findMatch_content {content : List Char}
    (headerless : hasMatch (blockHeader? keyword) content = false) :
    findMatch (blockHeader? keyword) (some '"') content = none := by
  rw [findMatch_free isFree_quote]
  simpa [hasMatch] using headerless

/-- A string without a header in it is passed over by the search for blocks. -/
theorem blocksFrom_withString (word : IsWordText keyword) {front content : List Char} {line : Nat}
    {before : Option Char} (closed : (blocksFrom keyword 0 line before front).unclosed = none)
    (plain : IsContent content) (headerless : hasMatch (blockHeader? keyword) content = false)
    (after : List Char) :
    blocksFrom keyword 0 line before (withString front content after) =
      let next := blocksFrom keyword 0 (line + (front ++ ['"']).count '\n') (some '"') after
      { blocks := (blocksFrom keyword 0 line before front).blocks ++ next.blocks
        unclosed := next.unclosed } := by
  rw [withString, blocksFrom_break word (by decide) closed,
    blocksFrom_quiet word (findMatch_content headerless) (by decide), plain.count_feed, Nat.add_zero]

theorem findMatch_withString (word : IsWordText keyword) {content : List Char}
    (header : hasMatch (blockHeader? keyword) content = true) (before : Option Char)
    (front after : List Char) :
    (findMatch (blockHeader? keyword) before (withString front content after)).isSome = true := by
  have longer (before : Option Char) (cs : List Char)
      (found : (blockHeader? keyword before cs).isSome = true) :
      (blockHeader? keyword before (cs ++ '"' :: after)).isSome = true := by
    rwa [blockHeader?_break after word (by decide), Option.isSome_map]
  have split : withString front content after =
      (front ++ ['"']) ++ (content ++ '"' :: after) := by
    simp [withString]
  rw [split]
  refine findMatch_behind ?_
  rw [List.getLast?_concat, Option.some_or, findMatch_free isFree_quote]
  exact findMatch_append _ longer header

/-- A text without headers is one in which no block is found and none is open. -/
theorem blocksFrom_eq_empty_iff {line : Nat} {before : Option Char} {cs : List Char} :
    blocksFrom keyword 0 line before cs = {} ↔ findMatch (blockHeader? keyword) before cs = none := by
  induction cs generalizing line before with
  | nil =>
    have none : blockHeader? keyword before [] = none := by
      rw [Option.eq_none_iff_forall_ne_some]
      intro found header
      obtain ⟨c, rest, same, -⟩ := blockHeader?_shape header
      simp at same
    exact iff_of_true rfl none
  | cons c cs ih =>
    rw [findMatch_cons_eq_none]
    cases header : blockHeader? keyword before (c :: cs) with
    | none => rw [blocksFrom_cons _ _ _ _ _ header, ih, and_iff_right rfl]
    | some found =>
      obtain ⟨name, behind⟩ := found
      refine iff_of_false (fun nothing => ?_) (fun both => nomatch both.1)
      cases group : closeGroup? '{' behind with
      | none =>
        rw [blocksFrom_unclosed header group] at nothing
        cases nothing
      | some found =>
        obtain ⟨matched, -, listed⟩ := blocksFrom_found header group line
        rw [listed] at nothing
        cases nothing

end Blocks

theorem hasBlockHeader_nil (keyword : String) : hasBlockHeader keyword [] = false := by
  rw [hasBlockHeader, hasMatch, Headerless.nil.findMatch]
  rfl

end SchemaAtlas.Text
