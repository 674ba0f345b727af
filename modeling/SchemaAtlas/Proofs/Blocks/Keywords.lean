import Mathlib.Data.List.DropRight
import SchemaAtlas.Proofs.Blocks.Feeds
import SchemaAtlas.Proofs.Blocks.Locality
import SchemaAtlas.Proofs.Text.RenamedSearch

/-!
A declaration keyword with a name behind it: where it is found, and that blanks around a text do not
matter for it.
-/

set_option autoImplicit false

namespace SchemaAtlas.Blocks

open Text

/-- Whether blanks and then a word begin a text. -/
def named? (cs : List Char) : Option (List Char × List Char) := (dropBlanks? cs).bind takeWord?

theorem named?_of_headed? {cs : List Char} (headed : (headed? cs).isSome = true) :
    (named? cs).isSome = true := by
  obtain ⟨found, headed⟩ := Option.isSome_iff_exists.mp headed
  simp only [headed?, Option.bind_eq_bind, Option.bind_eq_some_iff] at headed
  obtain ⟨name, blanks, word, taken, -⟩ := headed
  simp [named?, blanks, taken]

section Keywords

variable {keywords : List String} (words : ∀ keyword ∈ keywords, IsWordText keyword.toList)

include words

theorem keywordWithName?_run {before : Option Char} {run rest : List Char} (text : IsWordText run)
    (stops : ∀ c ∈ rest.head?, isWord c = false) :
    (keywordWithName? keywords before (run ++ rest)).isSome = true ↔
      before.any isWord = false ∧ (∃ keyword ∈ keywords, keyword.toList = run) ∧
        (named? rest).isSome = true := by
  have edge : atWordEdge before (run ++ rest).head? = !before.any isWord := by
    obtain ⟨held, inside⟩ := text
    cases run with
    | nil => exact absurd rfl held
    | cons c run => simp [atWordEdge, inside c (.head _)]
  rw [keywordWithName?, edge]
  cases before.any isWord with
  | true => simp
  | false =>
    simp only [Bool.not_false, if_true, true_and, List.findSome?_isSome_iff]
    constructor
    · rintro ⟨keyword, member, found⟩
      obtain ⟨taken, found⟩ := Option.isSome_iff_exists.mp found
      simp only [Option.bind_eq_bind, Option.bind_eq_some_iff] at found
      obtain ⟨behind, literal, name, blanks, word⟩ := found
      -- A blank ends the keyword, so that it is the whole run.
      have ends : ∀ c ∈ behind.head?, isWord c = false := by
        cases behind with
        | nil => simp
        | cons c behind =>
          rw [dropBlanks?] at blanks
          split at blanks
          next blank => simpa using (isFree_of_isBlank blank c rfl).1
          next => cases blanks
      obtain ⟨rfl, rfl⟩ := eq_of_words text.2 (words keyword member).2 stops ends
        (eq_append_of_dropLiteral? literal)
      exact ⟨⟨keyword, member, rfl⟩, by simp [named?, blanks, word]⟩
    · rintro ⟨⟨keyword, member, rfl⟩, found⟩
      exact ⟨keyword, member, by simpa [named?] using found⟩

theorem keywordWithName?_eq_none {before : Option Char} {cs : List Char}
    (outside : ∀ c ∈ cs.head?, isWord c = false) : keywordWithName? keywords before cs = none := by
  cases cs with
  | cons c cs => exact keywordWithName?_outside words (outside c rfl) before cs
  | nil =>
    rw [keywordWithName?]
    split
    next =>
      refine List.findSome?_eq_none_iff.mpr fun keyword member => ?_
      cases spelled : keyword.toList with
      | nil => exact absurd spelled (words keyword member).1
      | cons => rfl
    next => rfl

theorem anchored_keywordWithName? : Anchored (keywordWithName? keywords) where
  outside outside cs := keywordWithName?_outside words outside _ cs
  within {c} inside cs := by
    by_cases follows : cs.head?.any isWord = true
    · simp [keywordWithName?, atWordEdge, inside, follows]
    · refine keywordWithName?_eq_none words fun d first => ?_
      rw [Option.mem_def] at first
      simpa [first] using follows

end Keywords

theorem named?_blank {gap : List Char} (blank : ∀ c ∈ gap, isBlank c = true) {cs : List Char}
    (found : (named? (cs ++ gap)).isSome = true) : (named? cs).isSome = true := by
  have gone : trimLeft gap = [] := List.dropWhile_eq_nil_iff.mpr blank
  cases cs with
  | nil =>
    cases gap with
    | nil => exact found
    | cons c gap =>
      have rest : trimLeft gap = [] :=
        List.dropWhile_eq_nil_iff.mpr fun d member => blank d (.tail _ member)
      rw [List.nil_append, named?, dropBlanks?_cons (blank c (.head _)), rest] at found
      cases found
  | cons c cs =>
    rw [named?, List.cons_append, dropBlanks?] at found
    rw [named?, dropBlanks?]
    split at found
    next first =>
      -- Behind the first blanks either a word is left in front of the gap, or nothing at all.
      have rest : trimLeft (cs ++ gap) = if (trimLeft cs).isEmpty then [] else trimLeft cs ++ gap := by
        rw [← gone]
        exact List.dropWhile_append
      rw [if_pos first]
      rw [rest, Option.bind_some, isSome_takeWord?] at found
      rw [Option.bind_some, isSome_takeWord?]
      cases behind : trimLeft cs with
      | nil => simp [behind] at found
      | cons d behind' => simpa [behind] using found
    next => cases found

section Trimmed

variable {keywords : List String} (words : ∀ keyword ∈ keywords, IsWordText keyword.toList)
  {gap : List Char} (blank : ∀ c ∈ gap, isBlank c = true)

include words blank

theorem findMatch_gap {before : Option Char} (begins : before.any isWord = false) (cs : List Char) :
    findMatch (keywordWithName? keywords) before (gap ++ cs) =
      findMatch (keywordWithName? keywords) none cs := by
  induction gap generalizing before with
  | nil =>
    have same (ds : List Char) :
        keywordWithName? keywords before ds = keywordWithName? keywords none ds := by
      simp [keywordWithName?, atWordEdge, begins]
    cases cs with
    | nil => exact same []
    | cons c cs => rw [List.nil_append, findMatch, findMatch, same]
  | cons c gap ih =>
    have outside := (isFree_of_isBlank (blank c (.head _)) c rfl).1
    rw [List.cons_append, findMatch, keywordWithName?_outside words outside]
    exact ih (fun d member => blank d (.tail _ member)) outside

theorem keywordWithName?_blank {before : Option Char} {cs : List Char}
    (found : (keywordWithName? keywords before (cs ++ gap)).isSome = true) :
    (keywordWithName? keywords before cs).isSome = true := by
  have outside : ∀ c ∈ gap.head?, isWord c = false := fun c first =>
    (isFree_of_isBlank (blank c (List.mem_of_head? first)) c rfl).1
  cases cs with
  | nil =>
    rw [List.nil_append, keywordWithName?_eq_none words outside] at found
    cases found
  | cons c cs =>
    by_cases inside : isWord c = true
    · obtain ⟨run, rest, whole, text, stops⟩ := exists_word inside
      have stops' : ∀ c ∈ (rest ++ gap).head?, isWord c = false := by
        cases rest with
        | nil => exact outside
        | cons d rest => exact stops
      rw [whole] at found ⊢
      rw [List.append_assoc, keywordWithName?_run words text stops'] at found
      rw [keywordWithName?_run words text stops]
      exact ⟨found.1, found.2.1, named?_blank blank found.2.2⟩
    · rw [List.cons_append, keywordWithName?_outside words (by simpa using inside)] at found
      cases found

theorem findMatch_only_gap (before : Option Char) :
    findMatch (keywordWithName? keywords) before gap = none := by
  induction gap generalizing before with
  | nil => exact keywordWithName?_eq_none words (by simp)
  | cons c gap ih =>
    have outside := (isFree_of_isBlank (blank c (.head _)) c rfl).1
    rw [findMatch, keywordWithName?_outside words outside]
    exact ih (fun d member => blank d (.tail _ member)) _

theorem findMatch_append_gap {before : Option Char} {cs : List Char}
    (found : (findMatch (keywordWithName? keywords) before (cs ++ gap)).isSome = true) :
    (findMatch (keywordWithName? keywords) before cs).isSome = true := by
  induction cs generalizing before with
  | nil =>
    rw [List.nil_append, findMatch_only_gap words blank] at found
    cases found
  | cons c cs ih =>
    by_cases front : (keywordWithName? keywords before (c :: cs)).isSome = true
    · exact findMatch_of_front front
    -- What is not found here in the short text is not found here in the long one either.
    · have none : keywordWithName? keywords before (c :: cs ++ gap) = none := by
        by_contra some
        exact front (keywordWithName?_blank words blank (Option.isSome_iff_ne_none.mpr some))
      have none' : keywordWithName? keywords before (c :: cs) = Option.none := by simpa using front
      rw [List.cons_append] at none found
      rw [findMatch, none] at found
      rw [findMatch, none']
      exact ih found

end Trimmed

theorem looksLike_trim {keywords : PrismaKeywords}
    (models : IsWordText keywords.modelKeyword.toList)
    (enums : IsWordText keywords.enumKeyword.toList) (cs : List Char) :
    looksLike keywords (trim cs) = looksLike keywords cs := by
  have words : ∀ keyword ∈ [keywords.modelKeyword, keywords.enumKeyword],
      IsWordText keyword.toList := by simp [models, enums]
  obtain ⟨front, back, whole, blank, blank'⟩ := exists_trim cs
  have passed : looksLike keywords cs = looksLike keywords (trim cs ++ back) := by
    have same := findMatch_gap words blank (rfl : (none : Option Char).any isWord = false)
      (trim cs ++ back)
    rw [← whole] at same
    exact congrArg Option.isSome same
  have each (before : Option Char) (ds : List Char)
      (found : (keywordWithName? [keywords.modelKeyword, keywords.enumKeyword] before ds).isSome) :=
    keywordWithName?_append words found back
  rw [passed, Bool.eq_iff_iff]
  exact ⟨findMatch_append back each, findMatch_append_gap words blank'⟩

end SchemaAtlas.Blocks
