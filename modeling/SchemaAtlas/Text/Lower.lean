import SchemaAtlas.Text.Ranges
import SchemaAtlas.Text.CaseTable

/-!
Small letters of any script. Two capitals need care: the dotted capital I becomes two characters,
and the capital sigma has a form of its own at the end of a word.
-/

set_option autoImplicit false

namespace SchemaAtlas.Text

def CapitalRun.contains (run : CapitalRun) (n : Nat) : Bool :=
  run.first ≤ n && n ≤ run.last && (n - run.first) % run.step == 0

/-- The small letter of a capital, and any other character itself. -/
def lowerSimple (c : Char) : Char :=
  let n := c.toNat
  if n < 128 then if 65 ≤ n && n ≤ 90 then Char.ofNat (n + 32) else c
  else
    match capitalRuns.find? (·.contains n) with
    | some run => Char.ofNat (n + run.shift).toNat
    | none => c

private theorem toNat_of_ofNat {n code : Nat} (some : code ≠ 0)
    (same : (Char.ofNat n).toNat = code) : n = code := by
  by_cases valid : n.isValidChar
  · rw [Char.ofNat, dif_pos valid] at same
    exact same
  · rw [Char.ofNat, dif_neg valid] at same
    exact absurd same.symm some

theorem lowerSimple_ne_bracket {c : Char} (other : c ≠ ']') : lowerSimple c ≠ ']' := by
  intro same
  have code : (lowerSimple c).toNat = 93 := by rw [same]; rfl
  simp only [lowerSimple] at same code
  split at code
  next =>
    split at code
    next small capital =>
      simp only [Bool.and_eq_true, decide_eq_true_eq] at capital
      have shifted := toNat_of_ofNat (by decide) code
      omega
    next => exact other (Char.toNat_inj.mp code)
  next =>
    split at code
    next run found =>
      have shifts : ∀ run ∈ capitalRuns, 93 < run.first + run.shift := by decide +kernel
      have beyond := shifts run (List.mem_of_find?_eq_some found)
      have within := List.find?_some found
      simp only [CapitalRun.contains, Bool.and_eq_true, decide_eq_true_eq] at within
      have shifted := toNat_of_ofNat (by decide) code
      omega
    next => exact other (Char.toNat_inj.mp code)

def isCased (c : Char) : Bool :=
  let n := c.toNat
  if n < 128 then (65 ≤ n && n ≤ 90) || (97 ≤ n && n ≤ 122) else inRanges n casedRanges

def isCaseIgnorable (c : Char) : Bool :=
  let n := c.toNat
  if n < 128 then n == 39 || n == 46 || n == 58 || n == 94 || n == 96
  else inRanges n caseIgnorableRanges

def meetsCased (cs : List Char) : Bool :=
  ((cs.dropWhile isCaseIgnorable).head?).any isCased

private def lowerFrom (before : List Char) : List Char → List Char
  | [] => []
  | c :: cs =>
    let small :=
      if c = 'Σ' then if meetsCased before && !meetsCased cs then ['ς'] else ['σ']
      else if c = 'İ' then ['i', '\u0307']
      else [lowerSimple c]
    small ++ lowerFrom (c :: before) cs

private theorem bracket_of_mem_lowerFrom {before cs : List Char}
    (member : ']' ∈ lowerFrom before cs) : ']' ∈ cs := by
  induction cs generalizing before with
  | nil => cases member
  | cons c cs ih =>
    by_cases same : c = ']'
    · simp [same]
    rw [lowerFrom] at member
    rcases List.mem_append.mp member with here | member
    · have simple := (lowerSimple_ne_bracket same).symm
      split at here
      next => split at here <;> simp at here
      next => split at here <;> simp [simple] at here
    · exact .tail _ (ih member)

/-- The text in small letters. A capital sigma after a cased character and before none is final. -/
def lower (cs : List Char) : List Char := lowerFrom [] cs

theorem lower_ne_nil {cs : List Char} (some : cs ≠ []) : lower cs ≠ [] := by
  cases cs with
  | nil => exact absurd rfl some
  | cons c cs =>
    rw [lower, lowerFrom]
    split
    next => split <;> simp
    next => split <;> simp

theorem bracket_of_mem_lower {cs : List Char} (member : ']' ∈ lower cs) : ']' ∈ cs :=
  bracket_of_mem_lowerFrom member

end SchemaAtlas.Text
