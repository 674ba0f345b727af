import Mathlib
import SchemaAtlas.Decimal.Shortest
import SchemaAtlas.Proofs.Documents

/-!
Floating point numbers in documents: a finite one is written as a numeral, any other one as a word
that is no numeral.
-/

set_option autoImplicit false

namespace SchemaAtlas.Decimal

open Json

/-- The spellings of a number. A document with one of the three words has no strict reader. -/
def Spells (x : Float) (cs : List Char) : Prop :=
  if x.isFinite then IsNumeral cs
  else cs = "NaN".toList ∨ cs = "Infinity".toList ∨ cs = "-Infinity".toList

open Float.Model UnpackedFloat in
theorem toNat_unpackExponent (bits : UInt64) :
    (@unpackExponent .binary64 bits.toBitVec).toNat = bits.toNat / 2 ^ 52 % 2048 := by
  simp [unpackExponent, Nat.shiftRight_eq_div_pow]

open Float.Model UnpackedFloat in
/-- Eleven ones for the exponent mean that a number is not finite. -/
theorem isFinite_iff (x : Float) :
    x.isFinite = true ↔ x.toBits.toNat / 2 ^ 52 % 2048 ≠ 2047 := by
  have ones : (-1#11).toNat = 2047 := rfl
  rw [Float.toBits, ← toNat_unpackExponent, ← ones, ne_eq, BitVec.toNat_inj]
  simp only [Float.isFinite, Float.Model.isFinite, Float.Model.unpack, UnpackedFloat.unpack]
  split
  next special => split <;> simp [UnpackedFloat.isFinite, special]
  next usual => split <;> [split; skip] <;> simpa [UnpackedFloat.isFinite] using usual

theorem ofFloat_cases (x : Float) :
    (x.isFinite = true ∧ ∃ negative mantissa exponent,
      Value.ofFloat x = .finite negative mantissa exponent) ∨
    (x.isFinite = false ∧
      ((∃ negative, Value.ofFloat x = .infinite negative) ∨ Value.ofFloat x = .notANumber)) := by
  rw [Bool.eq_false_iff, ne_eq, isFinite_iff]
  unfold Value.ofFloat Value.ofBits
  simp only [Nat.pow_eq]
  split
  next special =>
    refine .inr ⟨not_not.mpr special, ?_⟩
    split
    next => exact .inl ⟨_, rfl⟩
    next => exact .inr rfl
  next usual =>
    refine .inl ⟨usual, ?_⟩
    split
    next => exact ⟨_, _, _, rfl⟩
    next => exact ⟨_, _, _, rfl⟩

theorem isDigits_padded (zeros : Nat) {cs : List Char} (digits : IsDigits cs) :
    IsDigits (List.replicate zeros '0' ++ cs) := by
  refine ⟨List.append_ne_nil_of_right_ne_nil _ digits.1, fun c member => ?_⟩
  rcases List.mem_append.mp member with zero | digit
  · rw [List.eq_of_mem_replicate zero]
    rfl
  · exact digits.2 c digit

theorem toList_pointed (units : Nat) {places : Nat} (some : 0 < places) :
    ∃ whole rest, IsWhole whole ∧ IsDigits rest ∧
      (pointed units places).toList = whole ++ '.' :: rest := by
  have isWhole : IsWhole (digitsOf units) := isWhole_toDigits units
  have size : 0 < (digitsOf units).length := List.length_pos_of_ne_nil isWhole.1.1
  unfold pointed
  simp only [if_neg (show places ≠ 0 by omega), String.toList_ofList]
  generalize digitsOf units = digits at isWhole size ⊢
  have padded := isDigits_padded (places + 1 - digits.length) isWhole.1
  have split : places < (List.replicate (places + 1 - digits.length) '0' ++ digits).length := by
    simp
    omega
  refine ⟨_, _, ⟨⟨?_, fun c member => padded.2 c (List.mem_of_mem_take member)⟩, fun zero => ?_⟩,
    ⟨?_, fun c member => padded.2 c (List.mem_of_mem_drop member)⟩, rfl⟩
  next => exact List.ne_nil_of_length_pos (by rw [List.length_take]; omega)
  next =>
    by_cases short : digits.length ≤ places
    next =>
      rw [show places + 1 - digits.length = (places - digits.length) + 1 by omega]
      have size : (List.replicate (places - digits.length + 1) '0' ++ digits).length - places = 1 := by
        simp
        omega
      rw [size]
      rfl
    next =>
      -- Nothing is filled up, so that a zero in front would be all of the digits.
      rw [show places + 1 - digits.length = 0 by omega, List.replicate_zero, List.nil_append,
        List.head?_take, if_neg (by omega)] at zero
      have alone := congrArg List.length (isWhole.2 zero)
      rw [List.length_singleton] at alone
      omega
  next => exact List.ne_nil_of_length_pos (by rw [List.length_drop]; omega)

theorem isNumeral_signed (negative : Bool) {body : String} {whole fraction exponent : List Char}
    (isWhole : IsWhole whole) (isFraction : IsFraction fraction) (isExponent : IsExponent exponent)
    (same : body.toList = whole ++ (fraction ++ exponent)) :
    IsNumeral (sign negative ++ body).toList := by
  refine ⟨(sign negative).toList, whole, fraction, exponent, ?_, isWhole, isFraction, isExponent,
    by rw [String.toList_append, same]⟩
  cases negative
  · exact .inl rfl
  · exact .inr rfl

theorem isExponent_exponentText (exponent : Int) : IsExponent (exponentText exponent).toList := by
  refine .inr ⟨'e', [if exponent < 0 then '-' else '+'], _, .inl rfl, ?_,
    isDigits_padded _ (isDigits_toDigits exponent.natAbs), String.toList_ofList⟩
  split <;> simp

theorem isNumeral_pointed (negative : Bool) (units : Nat) {places : Nat} (some : 0 < places) :
    IsNumeral (sign negative ++ pointed units places).toList := by
  obtain ⟨whole, rest, isWhole, isDigits, same⟩ := toList_pointed units some
  exact isNumeral_signed negative isWhole (.inr ⟨rest, rfl, isDigits⟩) (.inl rfl) (by simp [same])

theorem isNumeral_scientific (negative : Bool) {digits : List Char} (isDigits : IsDigits digits)
    (exponent : Int) : IsNumeral (sign negative ++ scientific digits exponent).toList := by
  have tail := isExponent_exponentText exponent
  cases digits with
  | nil => exact absurd rfl isDigits.1
  | cons d ds =>
    have front : IsWhole [d] := by
      refine ⟨⟨List.cons_ne_nil _ _, by simpa using isDigits.2 d List.mem_cons_self⟩, ?_⟩
      simp
    cases ds with
    | nil => exact isNumeral_signed negative front (.inl rfl) tail (by simp [scientific])
    | cons d' ds =>
      refine isNumeral_signed negative front (.inr ⟨d' :: ds, rfl, ?_⟩) tail (by simp [scientific])
      exact ⟨List.cons_ne_nil _ _, fun c member => isDigits.2 c (List.mem_cons_of_mem _ member)⟩

theorem spells_shortest (x : Float) : Spells x (shortest x).toList := by
  unfold Spells shortest
  obtain ⟨finite, negative, mantissa, exponent, same⟩ | ⟨special, ⟨negative, same⟩ | same⟩ :=
    ofFloat_cases x
  next =>
    rw [if_pos finite, same]
    simp only
    split
    next =>
      exact isNumeral_signed negative (isWhole_toDigits 0) (.inr ⟨['0'], rfl, isDigits_toDigits 0⟩)
        (.inl rfl) rfl
    next =>
      split
      next =>
        split
        next => exact isNumeral_pointed negative _ (by decide)
        next => exact isNumeral_pointed negative _ (by omega)
      next => exact isNumeral_scientific negative (isDigits_toDigits _) _
  next =>
    rw [if_neg (by simp [special]), same]
    cases negative
    · exact .inr (.inl rfl)
    · exact .inr (.inr rfl)
  next =>
    rw [if_neg (by simp [special]), same]
    exact .inl rfl

end SchemaAtlas.Decimal
