import SchemaAtlas.Blocks.Attribute
import SchemaAtlas.Proofs.Journaled
import SchemaAtlas.Proofs.Text.Comments
import SchemaAtlas.Proofs.Text.Enclosed

/-!
The four scans of a text agree on what a bracket encloses: its partner ends it, its braces balance,
its pieces are closed, and no comment begins in it unseen. So an attribute's arguments are closed.
-/

set_option autoImplicit false

namespace SchemaAtlas.Blocks.Attribute

open Text

theorem here?_wellNested {cs rest : List Char} {attr : Attribute}
    (matched : here? cs = some (.ok attr, rest)) : ∀ arg ∈ attr.args, WellNested arg.toList := by
  obtain ⟨⟨name, behind⟩, -, matched⟩ := Option.bind_eq_some_iff.mp matched
  simp only at matched
  split at matched
  next =>
    split at matched
    next raw _ closed =>
      cases matched
      obtain ⟨_, -, nested, -⟩ := closeGroup?_eq_some_iff.mp closed
      intro arg member
      obtain ⟨piece, found, rfl⟩ := List.mem_map.mp member
      rw [String.toList_ofList]
      exact nested.wellNested.splitTopLevel found
    next => cases matched
  next =>
    cases matched
    exact List.forall_mem_nil _

theorem listOf?_wellNested {cs : List Char} {attributes : List Attribute}
    (read : listOf? cs = .ok attributes) :
    ∀ attr ∈ attributes, ∀ arg ∈ attr.args, WellNested arg.toList := by
  intro attr member
  obtain ⟨found, listed, rfl⟩ := exists_of_mem_mapM read member
  obtain ⟨_, _, _, matched⟩ := exists_of_mem_allMatches listed
  exact here?_wellNested matched

/-- A bracket and its partner enclose balanced braces and pieces that are self-contained unless the
index of the bracket counts from the back and the search for its partner comes round to it. No scan
for comments touches what they enclose unless there is a comment mark. The arguments of attributes
are self-contained in any case. -/
theorem enclosed_text_is_self_contained_iff (cs : List Char) :
    (∀ (i : Int) (j : Nat), partner? cs i = .ok (some (j : Int)) →
      ((bracesBalanced (cut cs i (j + 1)) = true ∧ ∀ isSeparator : Char → Bool,
          ∀ piece ∈ splitTopLevel isSeparator (cut cs (i + 1) j), SelfContained piece) ↔
        0 ≤ i ∨ (j : Int) < cs.length + i) ∧
      (0 ≤ i → ∀ isSeparator : Char → Bool,
        ∀ piece ∈ splitTopLevel isSeparator (cut cs (i + 1) j),
          StandsBetween cs i.toNat j piece) ∧
      (¬ [some '/', some '/'] <:+: outline .code (cut cs i (j + 1)) →
        ¬ [some '/', some '*'] <:+: outline .code (cut cs i (j + 1)) →
          stripComments (cut cs i (j + 1)) = cut cs i (j + 1))) ∧
    ∀ attributes, listOf? cs = .ok attributes →
      ∀ attr ∈ attributes, ∀ arg ∈ attr.args, SelfContained arg.toList := by
  refine ⟨fun i j found => ⟨⟨fun ⟨_, each⟩ => ?_, fun short => ?_⟩, fun front => ?_,
    fun line block => ?_⟩, fun attributes read attr member arg given =>
      (listOf?_wellNested read attr member arg given).selfContained⟩
  · exact short_of_piece found (each _)
  · obtain ⟨group, inside⟩ := isNested_cut found short
    exact ⟨group.bracesBalanced, fun isSeparator piece member =>
      (inside.wellNested.splitTopLevel member).selfContained⟩
  · obtain ⟨i, rfl⟩ := Int.eq_ofNat_of_zero_le front
    obtain ⟨front, opener, inside, closer, rest, -, -, rfl, rfl, rfl⟩ :=
      partner?_eq_some_iff.mp found
    rw [cut_inside]
    exact fun isSeparator piece member =>
      standsBetween_of_infix (infix_of_mem_splitTopLevel member)
  · exact stripComments_eq_self (uncommented_iff.mpr ⟨line, block⟩)

def nestedDefault : List Char := "@default([\"a)\", \x7bk: '\x7d'\x7d], x)".toList

theorem enclosed_text_is_self_contained_iff_nestedDefault :
    partner? nestedDefault 8 = .ok (some 28) ∧ bracesBalanced (cut nestedDefault 8 29) = true ∧
      splitCommas (cut nestedDefault 9 28) = ["[\"a)\", \x7bk: '\x7d'\x7d]".toList, ['x']] ∧
      (∀ piece ∈ splitCommas (cut nestedDefault 9 28),
        SelfContained piece ∧ StandsBetween nestedDefault 8 28 piece) ∧
      stripComments (cut nestedDefault 8 29) = cut nestedDefault 8 29 ∧
      ∃ attr, listOf? nestedDefault = .ok [attr] ∧
        ∀ arg ∈ attr.args, SelfContained arg.toList := by
  have found : partner? nestedDefault 8 = .ok (some (28 : Nat)) := by decide +kernel
  obtain ⟨enclosed, arguments⟩ := enclosed_text_is_self_contained_iff nestedDefault
  obtain ⟨closed, stands, quiet⟩ := enclosed 8 28 found
  obtain ⟨balanced, pieces⟩ := closed.mpr (.inl (by decide))
  obtain ⟨attr, read⟩ : ∃ attr, listOf? nestedDefault = .ok [attr] := ⟨_, rfl⟩
  exact ⟨found, balanced, by decide +kernel,
    fun piece member => ⟨pieces _ piece member, stands (by decide) _ piece member⟩,
    quiet (by decide +kernel) (by decide +kernel), attr, read, arguments _ read attr (.head _)⟩

def openString : List Char := "\x7b'\x7d".toList

/-- The search comes round to a bracket whose string is not closed, and finds it closed there. -/
theorem partner_found_round_the_end :
    partner? openString (-3) = .ok (some 2) ∧ cut openString (-3) (2 + 1) = openString ∧
      bracesBalanced openString = false ∧ partner? openString 0 = .ok none := by
  decide +kernel

end SchemaAtlas.Blocks.Attribute
